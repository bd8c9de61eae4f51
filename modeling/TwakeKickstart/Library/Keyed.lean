import Mathlib.Data.List.Basic
import Mathlib.Data.List.Forall2

namespace TwakeKickstart.Library

/-! Lists that stand for maps: entries written one after the other, of which
the last one with a key is found. -/

variable {Key Value Row : Type} [BEq Key]

/-- The entry that a map holds for a key after all rows have been put. -/
def lastWith (key : Row → Option Key) (name : Key) (rows : List Row) :
    Option Row :=
  (rows.filter fun row => key row == some name).getLast?

theorem lastWith_congr {key : Row → Option Key} {name : Key}
    {rows rows' : List Row}
    (h : (rows.filter fun row => key row == some name) =
      rows'.filter fun row => key row == some name) :
    lastWith key name rows = lastWith key name rows' := by
  rw [lastWith, lastWith, h]

theorem rel_getLast? {R : Row → Row → Prop} {rows rows' : List Row}
    (h : List.Forall₂ R rows rows') :
    Option.Rel R rows.getLast? rows'.getLast? := by
  rw [← List.head?_reverse, ← List.head?_reverse]
  have hreverse := List.rel_reverse h
  revert hreverse
  generalize rows.reverse = last
  generalize rows'.reverse = last'
  intro hreverse
  cases hreverse with
  | nil => exact .none
  | cons hfirst _ => exact .some hfirst

theorem rel_lastWith {R : Row → Row → Prop} {key : Row → Option Key}
    {name : Key} {rows rows' : List Row} (h : List.Forall₂ R rows rows')
    (same : ∀ row row', R row row' → key row = key row') :
    Option.Rel R (lastWith key name rows) (lastWith key name rows') :=
  rel_getLast? (List.rel_filter (fun row row' hrow => by
    dsimp only
    rw [same row row' hrow]) h)

variable [LawfulBEq Key]

theorem mem_of_lastWith {key : Row → Option Key} {name : Key}
    {rows : List Row} {row : Row} (h : lastWith key name rows = some row) :
    row ∈ rows ∧ key row = some name := by
  obtain ⟨hrow, hkey⟩ := List.mem_filter.mp (List.mem_of_getLast? h)
  exact ⟨hrow, beq_iff_eq.mp hkey⟩

theorem lastWith_of_only {key : Row → Option Key} {name : Key}
    {rows : List Row} {row : Row} (h : row ∈ rows) (named : key row = some name)
    (only : ∀ other ∈ rows, key other = some name → other = row) :
    lastWith key name rows = some row := by
  have hmem : row ∈ rows.filter fun row => key row == some name :=
    List.mem_filter.mpr ⟨h, beq_iff_eq.mpr named⟩
  cases hlast : lastWith key name rows with
  | none =>
      rw [List.getLast?_eq_none_iff.mp hlast] at hmem
      cases hmem
  | some other =>
      obtain ⟨hother, hkey⟩ := mem_of_lastWith hlast
      rw [only other hother hkey]

theorem lastWith_filter {key : Row → Option Key} {name : Key}
    {kept : Row → Bool} {rows : List Row}
    (h : ∀ row ∈ rows, key row = some name → kept row = true) :
    lastWith key name (rows.filter kept) = lastWith key name rows := by
  refine lastWith_congr ?_
  rw [List.filter_filter]
  refine List.filter_congr fun row hrow => ?_
  cases hkey : key row == some name with
  | false => rfl
  | true => rw [h row hrow (beq_iff_eq.mp hkey), Bool.true_and]

theorem nodup_eraseDups (keys : List Key) : keys.eraseDups.Nodup := by
  match keys with
  | [] => exact List.nodup_nil
  | first :: rest =>
      rw [List.eraseDups_cons, List.nodup_cons]
      refine ⟨?_, nodup_eraseDups _⟩
      rw [List.mem_eraseDups, List.mem_filter]
      simp
termination_by keys.length
decreasing_by exact Nat.lt_succ_of_le (List.length_filter_le _ _)

theorem nodup_keys_filterMap (keys : List Key) (value : Key → Option Value) :
    ((keys.eraseDups.filterMap fun key => (value key).map (key, ·)).map
      Prod.fst).Nodup := by
  have hsublist : ∀ keys : List Key, ((keys.filterMap fun key =>
      (value key).map (key, ·)).map Prod.fst).Sublist keys := by
    intro keys
    induction keys with
    | nil => exact .slnil
    | cons first rest ih =>
        rw [List.filterMap_cons]
        cases value first with
        | none => exact ih.cons first
        | some found => exact ih.cons_cons first
  exact (nodup_eraseDups keys).sublist (hsublist _)

theorem lookup_filterMap (keys : List Key) (value : Key → Option Value)
    {name : Key} (h : name ∈ keys) :
    (keys.filterMap fun key => (value key).map (key, ·)).lookup name =
      value name := by
  induction keys with
  | nil => exact absurd h List.not_mem_nil
  | cons first rest ih =>
      rw [List.filterMap_cons]
      cases hsame : name == first with
      | true =>
          have heq := beq_iff_eq.mp hsame
          subst heq
          cases hvalue : value name with
          | some found => simp
          | none =>
              simp only [Option.map_none]
              by_cases hrest : name ∈ rest
              · rw [ih hrest, hvalue]
              · rw [List.lookup_eq_none_iff]
                intro entry hentry
                obtain ⟨other, hother, hmap⟩ := List.mem_filterMap.mp hentry
                obtain ⟨found, _, rfl⟩ := Option.map_eq_some_iff.mp hmap
                refine bne_iff_ne.mpr ?_
                rintro rfl
                exact hrest hother
      | false =>
          have hrest := (List.mem_cons.mp h).resolve_left fun heq => by
            rw [heq, BEq.rfl] at hsame
            cases hsame
          rw [← ih hrest]
          cases value first with
          | none => rfl
          | some found => simp [List.lookup_cons, hsame]

end TwakeKickstart.Library

namespace TwakeKickstart.Library.KeyedLoop

/-! Loops over entries with different keys, whose steps may fail and change
nothing but the slot of their own key. -/

variable {Error State Entry Name Slot : Type}
  {step : State → Entry → Except Error State} {key : Entry → Name}
  {slot : State → Name → Slot} {start finish : State}
  {entries : List Entry} {entry : Entry} {name : Name}

theorem bind_ok_iff {Value Result : Type} {source : Except Error Value}
    {next : Value → Except Error Result} {result : Result} :
    source >>= next = .ok result ↔
      ∃ value, source = .ok value ∧ next value = .ok result := by
  cases source with
  | error error =>
      constructor
      · intro h
        cases h
      · rintro ⟨value, h, _⟩
        cases h
  | ok value =>
      constructor
      · intro h
        exact ⟨value, rfl, h⟩
      · rintro ⟨other, h, hnext⟩
        cases h
        exact hnext

theorem cons_ok_iff : (entry :: entries).foldlM step start = .ok finish ↔
    ∃ next, step start entry = .ok next ∧
      entries.foldlM step next = .ok finish := by
  rw [List.foldlM_cons, bind_ok_iff]

theorem before_of_after (Holds : State → Prop)
    (back : ∀ state entry next, step state entry = .ok next →
      Holds next → Holds state)
    (run : entries.foldlM step start = .ok finish) (h : Holds finish) :
    Holds start := by
  induction entries generalizing start with
  | nil =>
      cases run
      exact h
  | cons entry rest ih =>
      obtain ⟨next, hstep, hrest⟩ := cons_ok_iff.mp run
      exact back start entry next hstep (ih hrest)

section Frame

variable (frame : ∀ state entry next name, step state entry = .ok next →
  name ≠ key entry → slot next name = slot state name)

include frame

theorem slot_of_not_mem (run : entries.foldlM step start = .ok finish)
    (other : name ∉ entries.map key) : slot finish name = slot start name := by
  induction entries generalizing start with
  | nil =>
      cases run
      rfl
  | cons entry rest ih =>
      obtain ⟨next, hstep, hrest⟩ := cons_ok_iff.mp run
      rw [List.map_cons, List.mem_cons, not_or] at other
      rw [ih hrest other.2, frame start entry next name hstep other.1]

/-- The step of an entry finds its slot as the loop found it and leaves it as
the loop leaves it. -/
theorem exists_step (distinct : (entries.map key).Nodup)
    (run : entries.foldlM step start = .ok finish) (h : entry ∈ entries) :
    ∃ before after, ∃ later : List Entry, step before entry = .ok after ∧
      later.foldlM step after = .ok finish ∧
      slot before (key entry) = slot start (key entry) ∧
      slot finish (key entry) = slot after (key entry) := by
  induction entries generalizing start with
  | nil => cases h
  | cons first rest ih =>
      obtain ⟨next, hstep, hrest⟩ := cons_ok_iff.mp run
      rw [List.map_cons, List.nodup_cons] at distinct
      obtain rfl | hmem := List.mem_cons.mp h
      · exact ⟨start, next, rest, hstep, hrest, rfl,
          slot_of_not_mem frame hrest distinct.1⟩
      · obtain ⟨before, after, later, hentry, hlater, hbefore, hafter⟩ :=
          ih distinct.2 hrest hmem
        have hne : key entry ≠ key first := by
          intro hsame
          exact distinct.1 (hsame ▸ List.mem_map_of_mem hmem)
        refine ⟨before, after, later, hentry, hlater, ?_, hafter⟩
        rw [hbefore, frame start first next (key entry) hstep hne]

end Frame

end TwakeKickstart.Library.KeyedLoop
