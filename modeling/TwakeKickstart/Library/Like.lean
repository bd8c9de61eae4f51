import Mathlib.Data.List.Infix
import Mathlib.Data.List.TakeWhile

namespace TwakeKickstart.Library

/-! The patterns of the SQL operator `LIKE`. -/

/-- The character that ends a text in C. -/
def nul : Char := Char.ofNat 0

/-- How a database reads a pattern: whether a backslash takes the meaning from
the character after it, which characters are the same to it, and whether it
reads texts up to a NUL character alone. -/
structure LikeRules where
  escapes : Bool
  fold : Char → Char
  terminated : Bool

namespace LikeRules

variable (rules : LikeRules)

def same (c d : Char) : Bool := rules.fold c == rules.fold d

def accepts : List Char → List Char → Bool
  | [], text => text.isEmpty
  | c :: pattern, text =>
      if c = '%' then text.tails.any (accepts pattern)
      else if rules.escapes && c == '\\' then
        match pattern, text with
        | literal :: pattern, d :: text =>
            rules.same literal d && accepts pattern text
        | _, _ => false
      else
        match text with
        | d :: text => (c == '_' || rules.same c d) && accepts pattern text
        | [] => false

theorem accepts_cons (c : Char) (pattern text : List Char) :
    rules.accepts (c :: pattern) text =
      if c = '%' then text.tails.any (rules.accepts pattern)
      else if rules.escapes && c == '\\' then
        match pattern, text with
        | literal :: pattern, d :: text =>
            rules.same literal d && rules.accepts pattern text
        | _, _ => false
      else
        match text with
        | d :: text =>
            (c == '_' || rules.same c d) && rules.accepts pattern text
        | [] => false := by
  rw [accepts.eq_def]

/-- The part of a text that is read. -/
def read (text : List Char) : List Char :=
  if rules.terminated then text.takeWhile (· != nul) else text

/-- `text LIKE pattern` -/
def like (pattern text : List Char) : Bool :=
  rules.accepts (rules.read pattern) (rules.read text)

theorem read_whole {text : List Char} (whole : nul ∉ text) :
    rules.read text = text := by
  unfold read
  split
  · refine List.takeWhile_eq_self_iff.mpr fun c hc => ?_
    rw [bne_iff_ne]
    rintro rfl
    exact whole hc
  · rfl

theorem like_whole {pattern text : List Char} (read : nul ∉ pattern)
    (whole : nul ∉ text) :
    rules.like pattern text = rules.accepts pattern text := by
  rw [like, read_whole rules read, read_whole rules whole]

theorem accepts_escapes {fold : Char → Char} {pattern : List Char}
    (plain : '\\' ∉ pattern) (text : List Char) :
    accepts ⟨true, fold, false⟩ pattern text = accepts ⟨false, fold, true⟩ pattern text := by
  induction pattern generalizing text with
  | nil => rw [accepts, accepts]
  | cons c pattern ih =>
      obtain ⟨hc, hrest⟩ := not_or.mp (mt List.mem_cons.mpr plain)
      have hliteral : (c == '\\') = false := by
        rw [beq_eq_false_iff_ne]
        exact Ne.symm hc
      have hih : accepts ⟨true, fold, false⟩ pattern = accepts ⟨false, fold, true⟩ pattern :=
        funext (ih hrest)
      rw [accepts_cons, accepts_cons]
      simp only [hliteral, Bool.and_false, hih]
      rfl

/-! A text between two percent signs, and the texts that contain it. -/

/-- The text has the other one in it, for the case rule. -/
def contains (text value : List Char) : Bool :=
  decide (value.map rules.fold <:+: text.map rules.fold)

/-- The characters that a pattern does not take for themselves. -/
def isMeta (c : Char) : Bool :=
  c == '%' || c == '_' || (rules.escapes && c == '\\')

/-- The case rule takes no other character for one of those. -/
def Separates : Prop :=
  ∀ c d, rules.isMeta c = true → rules.fold c = rules.fold d → c = d

/-- A text that the pattern accepts, and which is short: an unescaped percent
sign stands for nothing, and an underscore for a letter. -/
def bland : List Char → List Char
  | [] => []
  | c :: pattern =>
      if c = '%' then bland pattern
      else if rules.escapes && c == '\\' then
        match pattern with
        | literal :: pattern => literal :: bland pattern
        | [] => []
      else (if c = '_' then 'a' else c) :: bland pattern

section Accepts

variable {rules : LikeRules}

@[simp] theorem same_self (c : Char) : rules.same c c = true :=
  beq_self_eq_true _

theorem same_iff {c d : Char} :
    rules.same c d = true ↔ rules.fold c = rules.fold d :=
  beq_iff_eq

@[simp] theorem accepts_nil (text : List Char) :
    rules.accepts [] text = text.isEmpty := by
  rw [accepts]

theorem bland_cons (c : Char) (pattern : List Char) :
    rules.bland (c :: pattern) =
      if c = '%' then rules.bland pattern
      else if rules.escapes && c == '\\' then
        match pattern with
        | literal :: pattern => literal :: rules.bland pattern
        | [] => []
      else (if c = '_' then 'a' else c) :: rules.bland pattern := by
  rw [bland.eq_def]

theorem accepts_percent {pattern text : List Char} :
    rules.accepts ('%' :: pattern) text = true ↔
      ∃ rest, rest <:+ text ∧ rules.accepts pattern rest = true := by
  rw [accepts_cons]
  simp only [if_true, List.any_eq_true, List.mem_tails]

theorem accepts_escape {literal d : Char} {pattern text : List Char}
    (escapes : rules.escapes = true) :
    rules.accepts ('\\' :: literal :: pattern) (d :: text) =
      (rules.same literal d && rules.accepts pattern text) := by
  rw [accepts_cons]
  simp [escapes]

theorem accepts_underscore {d : Char} {pattern text : List Char} :
    rules.accepts ('_' :: pattern) (d :: text) =
      rules.accepts pattern text := by
  rw [accepts_cons]
  simp

theorem accepts_plain {c : Char} (plain : rules.isMeta c = false)
    {pattern text : List Char} :
    rules.accepts (c :: pattern) text = true ↔
      ∃ d rest, text = d :: rest ∧ rules.same c d = true ∧
        rules.accepts pattern rest = true := by
  simp only [isMeta, Bool.or_eq_false_iff] at plain
  obtain ⟨⟨hpercent, hunderscore⟩, hescape⟩ := plain
  rw [accepts_cons]
  simp only [beq_eq_false_iff_ne.mp hpercent, hescape, hunderscore, if_false,
    Bool.false_eq_true, Bool.false_or]
  cases text with
  | nil => simp
  | cons d rest => simp

theorem accepts_start {value : List Char}
    (plain : ∀ c ∈ value, rules.isMeta c = false) (text : List Char) :
    rules.accepts (value ++ ['%']) text = true ↔
      value.map rules.fold <+: text.map rules.fold := by
  induction value generalizing text with
  | nil =>
      rw [List.nil_append, accepts_percent]
      refine iff_of_true ⟨[], List.nil_suffix, ?_⟩ List.nil_prefix
      rw [accepts_nil]
      rfl
  | cons c value ih =>
      have hplain := plain c List.mem_cons_self
      have hrest := fun d hd => plain d (List.mem_cons_of_mem c hd)
      rw [List.cons_append, accepts_plain hplain, List.map_cons]
      cases text with
      | nil => simp
      | cons d text =>
          rw [List.map_cons, List.cons_prefix_cons, ← ih hrest text,
            ← same_iff]
          constructor
          · intro h
            obtain ⟨e, rest, heq, hsame, haccepts⟩ := h
            cases heq
            exact ⟨hsame, haccepts⟩
          · intro h
            exact ⟨d, text, rfl, h.1, h.2⟩

theorem accepts_between {value : List Char}
    (plain : ∀ c ∈ value, rules.isMeta c = false) (text : List Char) :
    rules.accepts ('%' :: (value ++ ['%'])) text = true ↔
      rules.contains text value = true := by
  rw [accepts_percent, contains, decide_eq_true_eq,
    List.infix_iff_prefix_suffix]
  constructor
  · intro h
    obtain ⟨rest, hsuffix, haccepts⟩ := h
    exact ⟨rest.map rules.fold, (accepts_start plain rest).mp haccepts,
      hsuffix.map rules.fold⟩
  · intro h
    obtain ⟨folded, hprefix, hsuffix⟩ := h
    obtain ⟨rest, hrest, heq⟩ := List.suffix_map_iff.mp hsuffix
    rw [heq] at hprefix
    exact ⟨rest, hrest, (accepts_start plain rest).mpr hprefix⟩

theorem reading (rules : LikeRules) {motive : List Char → Prop}
    (nil : motive [])
    (percent : ∀ rest, motive rest → motive ('%' :: rest))
    (underscore : ∀ rest, motive rest → motive ('_' :: rest))
    (last : rules.escapes = true → motive ['\\'])
    (escape : rules.escapes = true → ∀ literal rest, motive rest →
      motive ('\\' :: literal :: rest))
    (plain : ∀ c rest, rules.isMeta c = false → motive rest →
      motive (c :: rest))
    (value : List Char) : motive value := by
  induction h : value.length using Nat.strong_induction_on
      generalizing value with
  | h length ih =>
      cases value with
      | nil => exact nil
      | cons c rest =>
          rw [List.length_cons] at h
          have hrest := ih rest.length (by omega) rest rfl
          by_cases hmeta : rules.isMeta c = true
          · simp only [isMeta, Bool.or_eq_true, Bool.and_eq_true,
              beq_iff_eq] at hmeta
            obtain (rfl | rfl) | ⟨hescapes, rfl⟩ := hmeta
            · exact percent rest hrest
            · exact underscore rest hrest
            · cases rest with
              | nil => exact last hescapes
              | cons literal rest =>
                  rw [List.length_cons] at h
                  exact escape hescapes literal rest
                    (ih rest.length (by omega) rest rfl)
          · exact plain c rest (Bool.eq_false_iff.mpr hmeta) hrest

@[simp] theorem bland_nil : rules.bland [] = [] := by
  rw [bland]

@[simp] theorem bland_percent (rest : List Char) :
    rules.bland ('%' :: rest) = rules.bland rest := by
  rw [bland_cons]
  simp

@[simp] theorem bland_underscore (rest : List Char) :
    rules.bland ('_' :: rest) = 'a' :: rules.bland rest := by
  rw [bland_cons]
  simp

theorem bland_escape (escapes : rules.escapes = true) (literal : Char)
    (rest : List Char) :
    rules.bland ('\\' :: literal :: rest) = literal :: rules.bland rest := by
  rw [bland_cons]
  simp [escapes]

theorem bland_plain {c : Char} (plain : rules.isMeta c = false)
    (rest : List Char) : rules.bland (c :: rest) = c :: rules.bland rest := by
  simp only [isMeta, Bool.or_eq_false_iff, beq_eq_false_iff_ne] at plain
  rw [bland_cons]
  simp [plain]

theorem accepts_bland (value : List Char) :
    rules.accepts (value ++ ['%']) (rules.bland (value ++ ['%'])) = true := by
  induction value using reading rules with
  | nil =>
      rw [List.nil_append, accepts_percent]
      exact ⟨[], List.nil_suffix, accepts_nil []⟩
  | percent rest ih =>
      rw [List.cons_append, bland_percent, accepts_percent]
      exact ⟨_, List.suffix_rfl, ih⟩
  | underscore rest ih =>
      rw [List.cons_append, bland_underscore, accepts_underscore]
      exact ih
  | last escapes =>
      rw [List.singleton_append, bland_escape escapes, bland_nil,
        accepts_escape escapes, same_self, accepts_nil]
      rfl
  | escape escapes literal rest ih =>
      rw [List.cons_append, List.cons_append, bland_escape escapes,
        accepts_escape escapes, same_self, ih]
      rfl
  | plain c rest hplain ih =>
      rw [List.cons_append, bland_plain hplain, accepts_plain hplain]
      exact ⟨c, _, rfl, same_self c, ih⟩

theorem length_bland (value : List Char) :
    (rules.bland (value ++ ['%'])).length ≤ value.length := by
  induction value using reading rules with
  | nil => simp
  | percent rest ih =>
      rw [List.cons_append, bland_percent, List.length_cons]
      omega
  | underscore rest ih =>
      rw [List.cons_append, bland_underscore, List.length_cons,
        List.length_cons]
      omega
  | last escapes =>
      rw [List.singleton_append, bland_escape escapes, bland_nil]
      exact Nat.le_refl 1
  | escape escapes literal rest ih =>
      rw [List.cons_append, List.cons_append, bland_escape escapes]
      simp only [List.length_cons]
      omega
  | plain c rest hplain ih =>
      rw [List.cons_append, bland_plain hplain]
      simp only [List.length_cons]
      omega

theorem plain_of_bland (separates : rules.Separates) {value : List Char}
    (h : value.map rules.fold =
      (rules.bland (value ++ ['%'])).map rules.fold) :
    ∀ c ∈ value, rules.isMeta c = false := by
  have hlength := congrArg List.length h
  simp only [List.length_map] at hlength
  induction value using reading rules with
  | nil =>
      intro c hc
      cases hc
  | percent rest ih =>
      have hshort := @length_bland rules rest
      rw [List.cons_append, bland_percent, List.length_cons] at hlength
      omega
  | underscore rest ih =>
      rw [List.cons_append, bland_underscore, List.map_cons, List.map_cons,
        List.cons.injEq] at h
      have hsame := separates '_' 'a' (by simp [isMeta]) h.1
      cases hsame
  | last escapes =>
      rw [List.singleton_append, bland_escape escapes, bland_nil,
        List.map_cons, List.map_cons, List.cons.injEq] at h
      have hsame := separates '\\' '%' (by simp [isMeta, escapes]) h.1
      cases hsame
  | escape escapes literal rest ih =>
      have hshort := @length_bland rules rest
      rw [List.cons_append, List.cons_append, bland_escape escapes]
        at hlength
      simp only [List.length_cons] at hlength
      omega
  | plain c rest hplain ih =>
      rw [List.cons_append, bland_plain hplain] at h hlength
      rw [List.map_cons, List.map_cons, List.cons.injEq] at h
      rw [List.length_cons, List.length_cons] at hlength
      exact List.forall_mem_cons.mpr
        ⟨hplain, ih h.2 (Nat.succ_injective hlength)⟩

/-- A text that is taken for all it contains has none of the characters. -/
theorem plain_of_contains (separates : rules.Separates) {value : List Char}
    (h : rules.contains (rules.bland (value ++ ['%'])) value = true) :
    ∀ c ∈ value, rules.isMeta c = false := by
  rw [contains, decide_eq_true_eq] at h
  apply plain_of_bland separates
  apply h.eq_of_length_le
  rw [List.length_map, List.length_map]
  exact length_bland value

theorem mem_bland {c : Char} {pattern : List Char}
    (h : c ∈ rules.bland pattern) : c = 'a' ∨ c ∈ pattern := by
  induction pattern using reading rules with
  | nil =>
      rw [bland_nil] at h
      cases h
  | percent rest ih =>
      rw [bland_percent] at h
      exact (ih h).imp_right (List.mem_cons_of_mem _)
  | underscore rest ih =>
      rw [bland_underscore, List.mem_cons] at h
      exact h.elim .inl fun h => (ih h).imp_right (List.mem_cons_of_mem _)
  | last escapes =>
      rw [bland_cons] at h
      simp [escapes] at h
  | escape escapes literal rest ih =>
      rw [bland_escape escapes, List.mem_cons] at h
      rcases h with rfl | h
      · exact .inr (List.mem_cons_of_mem _ List.mem_cons_self)
      · exact (ih h).imp_right fun h =>
          List.mem_cons_of_mem _ (List.mem_cons_of_mem _ h)
  | plain c rest hplain ih =>
      rw [bland_plain hplain, List.mem_cons] at h
      rcases h with rfl | h
      · exact .inr List.mem_cons_self
      · exact (ih h).imp_right (List.mem_cons_of_mem _)

theorem bland_whole {pattern : List Char} (whole : nul ∉ pattern) :
    nul ∉ rules.bland pattern := by
  intro h
  rcases mem_bland h with hletter | hmem
  · exact absurd hletter (by decide)
  · exact whole hmem

theorem accepts_bland_self (literal : rules.escapes = false)
    (pattern : List Char) :
    rules.accepts pattern (rules.bland pattern) = true := by
  induction pattern using reading rules with
  | nil => rw [bland_nil, accepts_nil]; rfl
  | percent rest ih =>
      rw [bland_percent, accepts_percent]
      exact ⟨_, List.suffix_rfl, ih⟩
  | underscore rest ih =>
      rw [bland_underscore, accepts_underscore]
      exact ih
  | last escapes => exact absurd (literal.symm.trans escapes) (by decide)
  | escape escapes => exact absurd (literal.symm.trans escapes) (by decide)
  | plain c rest hplain ih =>
      rw [bland_plain hplain, accepts_plain hplain]
      exact ⟨c, _, rfl, same_self c, ih⟩

/-- Where texts are read up to a NUL, a value that has one is found in a text
that has none. -/
theorem exists_like_of_nul (literal : rules.escapes = false)
    (terminated : rules.terminated = true)
    (single : ∀ d, rules.fold d = rules.fold nul → d = nul)
    {value : List Char} (h : nul ∈ value) :
    ∃ text, nul ∉ text ∧
      rules.like ('%' :: (value ++ ['%'])) text = true ∧
      rules.contains text value = false := by
  have hwhole : nul ∉ value.takeWhile (· != nul) := by
    intro hmem
    exact absurd (List.mem_takeWhile_imp hmem) (by decide)
  have hread : rules.read ('%' :: (value ++ ['%'])) =
      '%' :: value.takeWhile (· != nul) := by
    have hshort : (value.takeWhile (· != nul)).length ≠ value.length := by
      intro hlength
      have hall := (List.takeWhile_prefix _).eq_of_length hlength
      rw [hall] at hwhole
      exact hwhole h
    rw [read, if_pos terminated, List.takeWhile_cons_of_pos (by decide),
      List.takeWhile_append, if_neg hshort]
  refine ⟨rules.bland (value.takeWhile (· != nul)), bland_whole hwhole, ?_, ?_⟩
  · rw [like, hread, read_whole rules (bland_whole hwhole), accepts_percent]
    exact ⟨_, List.suffix_rfl, accepts_bland_self literal _⟩
  · rw [← Bool.not_eq_true, contains, decide_eq_true_eq]
    intro hwithin
    obtain ⟨d, hd, hfold⟩ := List.mem_map.mp
      (hwithin.subset (List.mem_map_of_mem h))
    rw [single d hfold] at hd
    exact bland_whole hwhole hd

/-- A text between two percent signs that is plain and whole is taken
literally, in the texts that are read as a whole. -/
theorem like_between {value : List Char}
    (plain : ∀ c ∈ value, rules.isMeta c = false) (whole : nul ∉ value)
    {text : List Char}
    (h : rules.terminated = true → nul ∉ text ∨ value = []) :
    rules.like ('%' :: (value ++ ['%'])) text = rules.contains text value := by
  have hpattern : nul ∉ '%' :: (value ++ ['%']) := by
    simp [whole, (by decide : nul ≠ '%')]
  have hbetween : ∀ text, rules.accepts ('%' :: (value ++ ['%'])) text =
      rules.contains text value :=
    fun text => Bool.eq_iff_iff.mpr (accepts_between plain text)
  rw [like, read_whole rules hpattern, hbetween]
  by_cases hterminated : rules.terminated = true
  · rcases h hterminated with hwhole | rfl
    · rw [read_whole rules hwhole]
    · simp [contains]
  · rw [read, if_neg hterminated]

/-- There, no value is found behind a NUL. -/
theorem not_like_behind_nul (terminated : rules.terminated = true)
    {value : List Char} (whole : nul ∉ value)
    (plain : ∀ c ∈ value, rules.isMeta c = false) (some : value ≠ []) :
    rules.like ('%' :: (value ++ ['%'])) (nul :: value) = false ∧
      rules.contains (nul :: value) value = true := by
  have hread : rules.read (nul :: value) = [] := by
    rw [read, if_pos terminated, List.takeWhile_cons_of_neg (by decide)]
  have hpattern : nul ∉ '%' :: (value ++ ['%']) := by
    simp [whole, (by decide : nul ≠ '%')]
  refine ⟨?_, ?_⟩
  · rw [like, hread, read_whole rules hpattern, ← Bool.not_eq_true,
      accepts_between plain, contains, decide_eq_true_eq]
    simpa using some
  · rw [contains, decide_eq_true_eq, List.map_cons]
    exact (List.suffix_cons _ _).isInfix

end Accepts

end LikeRules

theorem eq_of_toLower {c d : Char} (noLetter : c.toNat < 97)
    (h : c = d.toLower) : c = d := by
  unfold Char.toLower at h
  split at h
  · rename_i hupper
    have hvalue : c.val.toNat = (d.val + ('a'.val - 'A'.val)).toNat := by
      rw [h]
    have hlower : 65 ≤ d.val.toNat := UInt32.le_iff_toNat_le.mp hupper.1
    have hbound : d.val.toNat ≤ 90 := UInt32.le_iff_toNat_le.mp hupper.2
    rw [UInt32.toNat_add] at hvalue
    change c.val.toNat = (d.val.toNat + 32) % 2 ^ 32 at hvalue
    change c.val.toNat < 97 at noLetter
    omega
  · exact h

end TwakeKickstart.Library
