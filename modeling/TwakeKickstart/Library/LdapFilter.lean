import Mathlib.Data.List.Basic

namespace TwakeKickstart.Library

/-! The texts of LDAP search filters: the grammar of RFC 4515 as far as it
brackets, the filter that a text is parsed to, and what a filter looks at. -/

namespace Ldap

def isKeyChar (c : Char) : Bool :=
  c.isAlphanum || c == '-' || c == ';' || c == '.'

def isRuleChar (c : Char) : Bool :=
  c != '(' && c != ')' && c != '='

def isValueChar (c : Char) : Bool :=
  c != '(' && c != ')' && c.toNat != 0

def isHexDigit (c : Char) : Bool :=
  c.isDigit || ('a' ≤ c && c ≤ 'f') || ('A' ≤ c && c ≤ 'F')

/-- Every backslash stands before two digits. -/
def escapesWell : List Char → Bool
  | [] => true
  | c :: rest =>
      (c != '\\' || (rest.take 2).length == 2 && (rest.take 2).all isHexDigit) &&
        escapesWell rest

/-- An attribute, the operator but for its equality sign, and the text to
compare with. -/
structure Item where
  key : List Char
  rule : List Char
  value : List Char
  named : key ≠ []
  keyChars : key.all isKeyChar = true
  ruleChars : rule.all isRuleChar = true
  ruleStart : rule.head?.all (fun c => !isKeyChar c) = true
  valueChars : value.all isValueChar = true
  escapes : escapesWell value = true

theorem ruleChars_nil : ([] : List Char).all isRuleChar = true := rfl

theorem ruleStart_nil :
    ([] : List Char).head?.all (fun c => !isKeyChar c) = true := rfl

def Item.body (item : Item) : List Char :=
  item.key ++ (item.rule ++ '=' :: item.value)

mutual

inductive Filter where
  | and (parts : Filters)
  | or (parts : Filters)
  | not (part : Filter)
  | item (item : Item)

/-- One filter or more. -/
inductive Filters where
  | last (filter : Filter)
  | more (filter : Filter) (rest : Filters)

end

mutual

def Filter.text : Filter → List Char
  | .and parts => '(' :: '&' :: (parts.text ++ [')'])
  | .or parts => '(' :: '|' :: (parts.text ++ [')'])
  | .not part => '(' :: '!' :: (part.text ++ [')'])
  | .item item => '(' :: (item.body ++ [')'])

def Filters.text : Filters → List Char
  | .last filter => filter.text
  | .more filter rest => filter.text ++ rest.text

end

/-! Parsing. -/

def parseBody (body : List Char) : Option Item :=
  let key := body.takeWhile isKeyChar
  let rest := body.dropWhile isKeyChar
  let rule := rest.takeWhile (· != '=')
  match rest.dropWhile (· != '=') with
  | _ :: value =>
      if h : key ≠ [] ∧ key.all isKeyChar = true ∧ rule.all isRuleChar = true ∧
          rule.head?.all (fun c => !isKeyChar c) = true ∧
          value.all isValueChar = true ∧ escapesWell value = true then
        some ⟨key, rule, value, h.1, h.2.1, h.2.2.1, h.2.2.2.1, h.2.2.2.2.1,
          h.2.2.2.2.2⟩
      else none
  | [] => none

def parseItem (text : List Char) : Option (Filter × List Char) :=
  match text.dropWhile (· != ')') with
  | _ :: rest =>
      (parseBody (text.takeWhile (· != ')'))).map fun item => (.item item, rest)
  | [] => none

mutual

def parseFilter : Nat → List Char → Option (Filter × List Char)
  | 0, _ => none
  | fuel + 1, '(' :: '&' :: rest =>
      (parseFilters fuel rest).map fun (parts, rest) => (.and parts, rest)
  | fuel + 1, '(' :: '|' :: rest =>
      (parseFilters fuel rest).map fun (parts, rest) => (.or parts, rest)
  | fuel + 1, '(' :: '!' :: rest =>
      (parseFilter fuel rest).bind fun
        | (part, ')' :: rest) => some (.not part, rest)
        | _ => none
  | _ + 1, '(' :: rest => parseItem rest
  | _ + 1, _ => none

def parseFilters : Nat → List Char → Option (Filters × List Char)
  | 0, _ => none
  | fuel + 1, text =>
      (parseFilter fuel text).bind fun
        | (filter, ')' :: rest) => some (.last filter, rest)
        | (filter, rest) =>
            (parseFilters fuel rest).map fun (parts, rest) =>
              (.more filter parts, rest)

end

/-- A filter that takes up the whole text. -/
def parse (text : List Char) : Option Filter :=
  match parseFilter text.length text with
  | some (filter, []) => some filter
  | _ => none

/-! Every filter is read back from its text. -/

theorem takeWhile_stop {p : Char → Bool} {before : List Char} {stop : Char}
    (holds : before.all p = true) (stops : p stop = false)
    (after : List Char) :
    (before ++ stop :: after).takeWhile p = before ∧
      (before ++ stop :: after).dropWhile p = stop :: after := by
  induction before with
  | nil => simp [stops]
  | cons c rest ih =>
      rw [List.all_cons, Bool.and_eq_true] at holds
      obtain ⟨htake, hdrop⟩ := ih holds.2
      simp [holds.1, htake, hdrop]

theorem all_of_imp {p q : Char → Bool} {chars : List Char}
    (h : chars.all p = true) (imp : ∀ c, p c = true → q c = true) :
    chars.all q = true :=
  List.all_eq_true.mpr fun c hc => imp c (List.all_eq_true.mp h c hc)

theorem closes_of_isKeyChar (c : Char) (h : isKeyChar c = true) :
    (c != ')') = true := by
  rw [bne_iff_ne]
  rintro rfl
  exact absurd h (by decide)

theorem body_not_paren (item : Item) : item.body.all (· != ')') = true := by
  rw [Item.body, List.all_append, List.all_append, List.all_cons]
  have hkey := all_of_imp item.keyChars closes_of_isKeyChar
  have hrule : item.rule.all (· != ')') = true :=
    all_of_imp item.ruleChars fun c h => by
      simp only [isRuleChar, Bool.and_eq_true] at h
      exact h.1.2
  have hvalue : item.value.all (· != ')') = true :=
    all_of_imp item.valueChars fun c h => by
      simp only [isValueChar, Bool.and_eq_true] at h
      exact h.1.2
  rw [hkey, hrule, hvalue]
  rfl

theorem parseBody_body (item : Item) : parseBody item.body = some item := by
  obtain ⟨stop, after, hafter, hstop⟩ : ∃ stop after,
      item.rule ++ '=' :: item.value = stop :: after ∧
        isKeyChar stop = false := by
    have hstart := item.ruleStart
    cases hrule : item.rule with
    | nil => exact ⟨'=', item.value, rfl, by decide⟩
    | cons first rest =>
        rw [hrule] at hstart
        exact ⟨first, rest ++ '=' :: item.value, rfl,
          by simpa using hstart⟩
  obtain ⟨hkey, hrest⟩ := takeWhile_stop item.keyChars hstop after
  rw [← hafter] at hkey hrest
  have hequals : item.rule.all (· != '=') = true :=
    all_of_imp item.ruleChars fun c h => by
      simp only [isRuleChar, Bool.and_eq_true] at h
      exact h.2
  obtain ⟨hrule, hvalue⟩ :=
    takeWhile_stop hequals (by decide : ('=' != '=') = false) item.value
  simp only [parseBody, Item.body, hkey, hrest, hrule, hvalue]
  rw [dif_pos ⟨item.named, item.keyChars, item.ruleChars, item.ruleStart,
    item.valueChars, item.escapes⟩]

theorem parseItem_body (item : Item) (rest : List Char) :
    parseItem (item.body ++ ')' :: rest) = some (.item item, rest) := by
  obtain ⟨htake, hdrop⟩ := takeWhile_stop (body_not_paren item)
    (by decide : (')' != ')') = false) rest
  simp only [parseItem, htake, hdrop, parseBody_body, Option.map_some]

theorem body_cons (item : Item) : ∃ first rest, item.body = first :: rest ∧
    isKeyChar first = true := by
  have hchars := item.keyChars
  cases hkey : item.key with
  | nil => exact absurd hkey item.named
  | cons first rest =>
      rw [hkey, List.all_cons, Bool.and_eq_true] at hchars
      exact ⟨first, rest ++ (item.rule ++ '=' :: item.value),
        by rw [Item.body, hkey]; rfl, hchars.1⟩

theorem Filters.text_cons (parts : Filters) :
    ∃ rest, parts.text = '(' :: rest := by
  have hfilter : ∀ filter : Filter, ∃ rest, filter.text = '(' :: rest := by
    intro filter
    cases filter with
    | and parts => exact ⟨_, by rw [Filter.text]⟩
    | or parts => exact ⟨_, by rw [Filter.text]⟩
    | not part => exact ⟨_, by rw [Filter.text]⟩
    | item item => exact ⟨_, by rw [Filter.text]⟩
  cases parts with
  | last filter =>
      rw [Filters.text]
      exact hfilter filter
  | more filter rest =>
      obtain ⟨text, htext⟩ := hfilter filter
      exact ⟨text ++ rest.text, by rw [Filters.text, htext]; rfl⟩

mutual

/-- The fuel that a filter needs. -/
def Filter.cost : Filter → Nat
  | .and parts => parts.cost + 1
  | .or parts => parts.cost + 1
  | .not part => part.cost + 1
  | .item _ => 1

def Filters.cost : Filters → Nat
  | .last filter => filter.cost + 1
  | .more filter rest => filter.cost + rest.cost + 1

end

mutual

theorem Filter.cost_lt (filter : Filter) :
    filter.cost < filter.text.length := by
  cases filter with
  | and parts =>
      have h := Filters.cost_le parts
      simp only [Filter.cost, Filter.text, List.length_cons,
        List.length_append, List.length_nil]
      omega
  | or parts =>
      have h := Filters.cost_le parts
      simp only [Filter.cost, Filter.text, List.length_cons,
        List.length_append, List.length_nil]
      omega
  | not part =>
      have h := Filter.cost_lt part
      simp only [Filter.cost, Filter.text, List.length_cons,
        List.length_append, List.length_nil]
      omega
  | item item =>
      simp only [Filter.cost, Filter.text, List.length_cons,
        List.length_append, List.length_nil]
      omega

theorem Filters.cost_le (parts : Filters) :
    parts.cost ≤ parts.text.length := by
  cases parts with
  | last filter =>
      have h := Filter.cost_lt filter
      simp only [Filters.cost, Filters.text]
      omega
  | more filter rest =>
      have hfilter := Filter.cost_lt filter
      have hrest := Filters.cost_le rest
      simp only [Filters.cost, Filters.text, List.length_append]
      omega

end

mutual

theorem parseFilter_text (filter : Filter) (fuel : Nat) (rest : List Char) :
    parseFilter (filter.cost + fuel) (filter.text ++ rest) =
      some (filter, rest) := by
  cases filter with
  | and parts =>
      rw [Filter.cost, Nat.add_right_comm, Filter.text]
      simp only [List.cons_append, List.append_assoc, List.nil_append,
        parseFilter]
      rw [parseFilters_text parts fuel rest]
      rfl
  | or parts =>
      rw [Filter.cost, Nat.add_right_comm, Filter.text]
      simp only [List.cons_append, List.append_assoc, List.nil_append,
        parseFilter]
      rw [parseFilters_text parts fuel rest]
      rfl
  | not part =>
      rw [Filter.cost, Nat.add_right_comm, Filter.text]
      simp only [List.cons_append, List.append_assoc, List.nil_append,
        parseFilter]
      rw [parseFilter_text part fuel (')' :: rest)]
      rfl
  | item item =>
      obtain ⟨first, others, hbody, hfirst⟩ := body_cons item
      have hitem := parseItem_body item rest
      rw [Filter.cost, Nat.add_comm, Filter.text]
      simp only [List.cons_append, List.append_assoc, List.nil_append]
      rw [hbody] at hitem ⊢
      simp only [List.cons_append] at hitem ⊢
      rw [parseFilter]
      · exact hitem
      · intro _ hsame
        rw [(List.cons.inj hsame).1] at hfirst
        exact absurd hfirst (by decide)
      · intro _ hsame
        rw [(List.cons.inj hsame).1] at hfirst
        exact absurd hfirst (by decide)
      · intro _ hsame
        rw [(List.cons.inj hsame).1] at hfirst
        exact absurd hfirst (by decide)

theorem parseFilters_text (parts : Filters) (fuel : Nat) (rest : List Char) :
    parseFilters (parts.cost + fuel) (parts.text ++ ')' :: rest) =
      some (parts, rest) := by
  cases parts with
  | last filter =>
      rw [Filters.cost, Nat.add_right_comm, Filters.text, parseFilters,
        parseFilter_text filter fuel (')' :: rest)]
      rfl
  | more filter others =>
      obtain ⟨text, htext⟩ := Filters.text_cons others
      have hfilter := parseFilter_text filter (others.cost + fuel)
        (others.text ++ ')' :: rest)
      have hothers := parseFilters_text others (filter.cost + fuel) rest
      rw [htext, List.cons_append] at hfilter hothers
      rw [Filters.cost, Filters.text, List.append_assoc, htext,
        List.cons_append,
        show filter.cost + others.cost + 1 + fuel =
          filter.cost + (others.cost + fuel) + 1 by omega, parseFilters,
        hfilter, Option.bind_some,
        show filter.cost + (others.cost + fuel) =
          others.cost + (filter.cost + fuel) by omega]
      split
      · rename_i hcloses
        cases (List.cons.inj (Prod.mk.inj hcloses).2).1
      · rename_i hopens
        cases hopens
        rw [hothers]
        rfl

end

theorem parse_text (filter : Filter) : parse filter.text = some filter := by
  have hcost := filter.cost_lt
  obtain ⟨spare, hspare⟩ := Nat.exists_eq_add_of_le (Nat.le_of_lt hcost)
  have hparse := parseFilter_text filter spare []
  rw [List.append_nil, ← hspare] at hparse
  rw [parse, hparse]

/-! What a filter looks at. -/

section Selection

variable (holds : Item → Bool)

mutual

def Filter.selects : Filter → Bool
  | .and parts => parts.all
  | .or parts => parts.any
  | .not part => !part.selects
  | .item item => holds item

def Filters.all : Filters → Bool
  | .last filter => filter.selects
  | .more filter rest => filter.selects && rest.all

def Filters.any : Filters → Bool
  | .last filter => filter.selects
  | .more filter rest => filter.selects || rest.any

end

end Selection

mutual

def Filter.mentions (named : List Char → Bool) : Filter → Bool
  | .and parts => parts.mention named
  | .or parts => parts.mention named
  | .not part => part.mentions named
  | .item item => named item.key

def Filters.mention (named : List Char → Bool) : Filters → Bool
  | .last filter => filter.mentions named
  | .more filter rest => filter.mentions named || rest.mention named

end

section Congruence

variable {holds holds' : Item → Bool} {named : List Char → Bool}

mutual

theorem Filter.selects_congr
    (same : ∀ item : Item, named item.key = false → holds item = holds' item)
    (filter : Filter) (unmentioned : filter.mentions named = false) :
    filter.selects holds = filter.selects holds' := by
  cases filter with
  | and parts =>
      rw [Filter.mentions] at unmentioned
      rw [Filter.selects, Filter.selects,
        (Filters.selects_congr same parts unmentioned).1]
  | or parts =>
      rw [Filter.mentions] at unmentioned
      rw [Filter.selects, Filter.selects,
        (Filters.selects_congr same parts unmentioned).2]
  | not part =>
      rw [Filter.mentions] at unmentioned
      rw [Filter.selects, Filter.selects,
        Filter.selects_congr same part unmentioned]
  | item item =>
      rw [Filter.mentions] at unmentioned
      rw [Filter.selects, Filter.selects, same item unmentioned]

theorem Filters.selects_congr
    (same : ∀ item : Item, named item.key = false → holds item = holds' item)
    (parts : Filters) (unmentioned : parts.mention named = false) :
    parts.all holds = parts.all holds' ∧
      parts.any holds = parts.any holds' := by
  cases parts with
  | last filter =>
      rw [Filters.mention] at unmentioned
      have hfilter := Filter.selects_congr same filter unmentioned
      simp only [Filters.all, Filters.any, hfilter, and_self]
  | more filter rest =>
      rw [Filters.mention, Bool.or_eq_false_iff] at unmentioned
      have hfilter := Filter.selects_congr same filter unmentioned.1
      obtain ⟨hall, hany⟩ := Filters.selects_congr same rest unmentioned.2
      simp only [Filters.all, Filters.any, hfilter, hall, hany, and_self]

end

end Congruence

/-! One filter of several. -/

def Filters.ofCons (first : Filter) : List Filter → Filters
  | [] => .last first
  | second :: rest => .more first (Filters.ofCons second rest)

theorem text_ofCons (first : Filter) (rest : List Filter) :
    (Filters.ofCons first rest).text =
      (first :: rest).flatMap Filter.text := by
  induction rest generalizing first with
  | nil => simp [Filters.ofCons, Filters.text]
  | cons second rest ih =>
      rw [Filters.ofCons, Filters.text, ih]
      rfl

theorem any_ofCons (holds : Item → Bool) (first : Filter)
    (rest : List Filter) :
    (Filters.ofCons first rest).any holds =
      (first :: rest).any (Filter.selects holds) := by
  induction rest generalizing first with
  | nil => simp [Filters.ofCons, Filters.any]
  | cons second rest ih =>
      rw [Filters.ofCons, Filters.any, ih]
      rfl

theorem mention_ofCons (named : List Char → Bool) (first : Filter)
    (rest : List Filter) :
    (Filters.ofCons first rest).mention named =
      (first :: rest).any (Filter.mentions named) := by
  induction rest generalizing first with
  | nil => simp [Filters.ofCons, Filters.mention]
  | cons second rest ih =>
      rw [Filters.ofCons, Filters.mention, ih]
      rfl

end Ldap

end TwakeKickstart.Library
