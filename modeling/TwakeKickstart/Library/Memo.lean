import Mathlib.Data.List.Basic
import Mathlib.Data.List.Range
import TwakeKickstart.Library.Transition

namespace TwakeKickstart.Library

/-! A function that answers with objects, and whose answers are remembered
under a key without a copy. -/

structure Memo (Args Key Row : Type) where
  key : Args → Key
  source : Args → Option (List Row)

namespace Memo

variable {Args Key Row : Type}

/-- The objects by their addresses, what is remembered, and what each call was
given. -/
structure State (Key Row : Type) where
  heap : List Row
  cache : List (Key × List Nat)
  answers : List (Option (List Nat))

inductive Event (Args Key Row : Type) where
  | call (args : Args)
  | write (answer row : Nat) (content : Row)
  | expire (key : Key)

namespace State

def empty : State Key Row := ⟨[], [], []⟩

def objects (state : State Key Row) (addresses : List Nat) :
    List (Option Row) :=
  addresses.map (state.heap[·]?)

/-- A row of an answer. -/
def address (state : State Key Row) (answer row : Nat) : Option Nat :=
  (state.answers[answer]?).join.bind (·[row]?)

/-- The rows that each call was given, as they are now. -/
def shown (state : State Key Row) : List (Option (List (Option Row))) :=
  state.answers.map (Option.map state.objects)

end State

section Steps

variable [DecidableEq Key] (memo : Memo Args Key Row)

def call (args : Args) (state : State Key Row) : State Key Row :=
  match state.cache.lookup (memo.key args) with
  | some addresses =>
      { state with answers := state.answers ++ [some addresses] }
  | none =>
      match memo.source args with
      | none => { state with answers := state.answers ++ [none] }
      | some rows =>
          let addresses := List.range' state.heap.length rows.length
          { heap := state.heap ++ rows
            cache := (memo.key args, addresses) :: state.cache
            answers := state.answers ++ [some addresses] }

def next (state : State Key Row) : Event Args Key Row → State Key Row
  | .call args => memo.call args state
  | .write answer row content =>
      match state.address answer row with
      | some address => { state with heap := state.heap.set address content }
      | none => state
  | .expire key =>
      { state with cache := state.cache.filter fun entry => entry.1 ≠ key }

/-- Without memory every call is given objects of its own. -/
def nextPlain (answers : List (Option (List Row))) :
    Event Args Key Row → List (Option (List Row))
  | .call args => answers ++ [memo.source args]
  | .write answer row content =>
      answers.modify answer (Option.map (·.set row content))
  | .expire _ => answers

/-- Both, and on the side for whom each entry was made and which objects were
written to. -/
structure Watched (Args Key Row : Type) where
  memo : State Key Row
  plain : List (Option (List Row))
  filled : List (Key × Args)
  written : List Nat

def Watched.start : Watched Args Key Row := ⟨.empty, [], [], []⟩

def filledBy (watched : Watched Args Key Row) :
    Event Args Key Row → List (Key × Args)
  | .call args =>
      if (watched.memo.cache.lookup (memo.key args)).isSome then watched.filled
      else (memo.key args, args) :: watched.filled
  | _ => watched.filled

def writtenBy (watched : Watched Args Key Row) :
    Event Args Key Row → List Nat
  | .write answer row _ =>
      (watched.memo.address answer row).toList ++ watched.written
  | _ => watched.written

def watch (watched : Watched Args Key Row) (event : Event Args Key Row) :
    Option (Watched Args Key Row) :=
  some
    { memo := memo.next watched.memo event
      plain := memo.nextPlain watched.plain event
      filled := memo.filledBy watched event
      written := writtenBy watched event }

end Steps

/-- Every call is shown what it would be shown without memory. -/
def Transparent (watched : Watched Args Key Row) : Prop :=
  watched.memo.shown = watched.plain.map (Option.map (List.map some))

/-- An entry is used for the arguments that it was made for, with objects that
were not written to, and objects are written to by the only call that has
them. -/
def Apart [DecidableEq Key] (memo : Memo Args Key Row)
    (watched : Watched Args Key Row) : Event Args Key Row → Prop
  | .call args => ∀ addresses,
      watched.memo.cache.lookup (memo.key args) = some addresses →
        watched.filled.lookup (memo.key args) = some args ∧
          ∀ address ∈ addresses, address ∉ watched.written
  | .write answer row _ => ∀ address,
      watched.memo.address answer row = some address →
        ∀ (other : Nat) addresses,
          watched.memo.answers[other]? = some (some addresses) →
            address ∈ addresses → other = answer
  | .expire _ => True

/-! Objects. -/

section Objects

variable {heap rows : List Row} {addresses : List Nat}

theorem map_append_heap (bounded : ∀ address ∈ addresses, address < heap.length)
    (rows : List Row) :
    addresses.map ((heap ++ rows)[·]?) = addresses.map (heap[·]?) := by
  apply List.map_congr_left
  intro address hmem
  exact List.getElem?_append_left (bounded address hmem)

theorem map_fresh (heap rows : List Row) :
    (List.range' heap.length rows.length).map ((heap ++ rows)[·]?) =
      rows.map some := by
  apply List.ext_getElem?
  intro index
  rw [List.getElem?_map, List.getElem?_map]
  by_cases h : index < rows.length
  · rw [List.getElem?_range' h, Option.map_some, Nat.one_mul,
      List.getElem?_append_right (Nat.le_add_right _ _), Nat.add_sub_cancel_left,
      List.getElem?_eq_getElem h]
    rfl
  · rw [List.getElem?_eq_none (by simpa using h),
      List.getElem?_eq_none (Nat.le_of_not_lt h)]
    rfl

theorem map_set_other {address : Nat} (other : address ∉ addresses)
    (content : Row) :
    addresses.map ((heap.set address content)[·]?) =
      addresses.map (heap[·]?) := by
  apply List.map_congr_left
  intro own hmem
  refine List.getElem?_set_ne ?_
  intro heq
  rw [heq] at other
  exact other hmem

theorem map_set_own {address row : Nat} (nodup : addresses.Nodup)
    (found : addresses[row]? = some address) (inside : address < heap.length)
    (content : Row) :
    addresses.map ((heap.set address content)[·]?) =
      (addresses.map (heap[·]?)).set row (some content) := by
  apply List.ext_getElem?
  intro index
  rw [List.getElem?_map, List.getElem?_set, List.getElem?_map,
    List.length_map]
  by_cases hindex : row = index
  · subst hindex
    have hrow : row < addresses.length :=
      (List.getElem?_eq_some_iff.mp found).1
    rw [if_pos rfl, if_pos hrow, found, Option.map_some,
      List.getElem?_set_self inside]
  · rw [if_neg hindex]
    cases hother : addresses[index]? with
    | none => rfl
    | some other =>
        rw [Option.map_some, Option.map_some]
        congr 1
        refine List.getElem?_set_ne ?_
        intro heq
        have hsame : addresses[row]? = addresses[index]? := by
          rw [found, hother, heq]
        have hrow := (List.getElem?_eq_some_iff.mp found).1
        exact hindex ((List.getElem?_inj hrow nodup).mp hsame)

end Objects

theorem transparent_append {before after : Watched Args Key Row}
    {answer : Option (List Nat)} {rows : Option (List Row)}
    (transparent : Transparent before)
    (answers : after.memo.answers = before.memo.answers ++ [answer])
    (plain : after.plain = before.plain ++ [rows])
    (kept : ∀ addresses, some addresses ∈ before.memo.answers →
      after.memo.objects addresses = before.memo.objects addresses)
    (own : answer.map after.memo.objects = rows.map (List.map some)) :
    Transparent after := by
  have hold : before.memo.answers.map (Option.map after.memo.objects) =
      before.memo.shown := by
    apply List.map_congr_left
    intro given hgiven
    cases given with
    | none => rfl
    | some addresses => exact congrArg some (kept addresses hgiven)
  unfold Transparent State.shown
  rw [answers, plain, List.map_append, List.map_append, hold, transparent,
    List.map_singleton, List.map_singleton, own]

section Answers

variable {watched : Watched Args Key Row}

theorem unchanged_row {answer row : Nat} (transparent : Transparent watched)
    (missing : watched.memo.address answer row = none) (content : Row) :
    (watched.plain[answer]?).map (Option.map (·.set row content)) =
      watched.plain[answer]? := by
  have hanswer := congrArg (·[answer]?) transparent
  simp only [State.shown, List.getElem?_map] at hanswer
  unfold State.address at missing
  cases hplain : watched.plain[answer]? with
  | none => rfl
  | some own =>
      cases own with
      | none => rfl
      | some rows =>
          rw [hplain] at hanswer
          cases hgiven : watched.memo.answers[answer]? with
          | none =>
              rw [hgiven] at hanswer
              cases hanswer
          | some given =>
              cases given with
              | none =>
                  rw [hgiven] at hanswer
                  cases hanswer
              | some addresses =>
                  rw [hgiven] at hanswer missing
                  have hobjects : addresses.map (watched.memo.heap[·]?) =
                      rows.map some :=
                    Option.some.inj (Option.some.inj hanswer)
                  have hlength := congrArg List.length hobjects
                  rw [List.length_map, List.length_map] at hlength
                  have hrow : addresses.length ≤ row :=
                    List.getElem?_eq_none_iff.mp missing
                  rw [hlength] at hrow
                  exact congrArg (some ∘ some)
                    (List.set_eq_of_length_le hrow)

end Answers

/-! What holds in every run that keeps them apart. -/

section Runs

variable [DecidableEq Key] {memo : Memo Args Key Row}
variable {watched : Watched Args Key Row}

/-- Addresses of different objects. -/
structure Placed (heap : List Row) (addresses : List Nat) : Prop where
  bounded : ∀ address ∈ addresses, address < heap.length
  nodup : addresses.Nodup

/-- What is remembered is what the source would answer, as long as nobody has
written to it. -/
structure Remembered (memo : Memo Args Key Row) (watched : Watched Args Key Row)
    (key : Key) (addresses : List Nat) : Prop where
  placed : Placed watched.memo.heap addresses
  faithful : ∀ args, watched.filled.lookup key = some args →
    (∀ address ∈ addresses, address ∉ watched.written) →
      ∃ rows, memo.source args = some rows ∧
        watched.memo.objects addresses = rows.map some

structure Consistent (memo : Memo Args Key Row)
    (watched : Watched Args Key Row) : Prop where
  transparent : Transparent watched
  placed : ∀ addresses, some addresses ∈ watched.memo.answers →
    Placed watched.memo.heap addresses
  remembered : ∀ key addresses,
    watched.memo.cache.lookup key = some addresses →
      Remembered memo watched key addresses

theorem consistent_start :
    Consistent memo (Watched.start : Watched Args Key Row) := by
  constructor
  · rfl
  · intro addresses h
    cases h
  · intro key addresses h
    cases h

theorem Placed.append {heap : List Row} {addresses : List Nat}
    (placed : Placed heap addresses) (rows : List Row) :
    Placed (heap ++ rows) addresses := by
  refine ⟨?_, placed.nodup⟩
  intro address hmem
  rw [List.length_append]
  exact Nat.lt_of_lt_of_le (placed.bounded address hmem) (Nat.le_add_right _ _)

theorem Placed.set {heap : List Row} {addresses : List Nat}
    (placed : Placed heap addresses) (address : Nat) (content : Row) :
    Placed (heap.set address content) addresses := by
  refine ⟨?_, placed.nodup⟩
  intro own hmem
  rw [List.length_set]
  exact placed.bounded own hmem

theorem placed_fresh (heap rows : List Row) :
    Placed (heap ++ rows) (List.range' heap.length rows.length) := by
  refine ⟨?_, List.nodup_range'⟩
  intro address hmem
  rw [List.length_append]
  exact (List.mem_range'_1.mp hmem).2

theorem Remembered.kept {before after : Watched Args Key Row} {key : Key}
    {addresses : List Nat} (remembered : Remembered memo before key addresses)
    (placed : Placed after.memo.heap addresses)
    (filled : after.filled.lookup key = before.filled.lookup key)
    (unwritten : (∀ address ∈ addresses, address ∉ after.written) →
      (∀ address ∈ addresses, address ∉ before.written) ∧
        after.memo.objects addresses = before.memo.objects addresses) :
    Remembered memo after key addresses := by
  refine ⟨placed, ?_⟩
  intro args hfilled hwritten
  rw [filled] at hfilled
  obtain ⟨hbefore, hobjects⟩ := unwritten hwritten
  rw [hobjects]
  exact remembered.faithful args hfilled hbefore

theorem consistent_hit (consistent : Consistent memo watched) {args : Args}
    {addresses : List Nat}
    (found : watched.memo.cache.lookup (memo.key args) = some addresses)
    (own : watched.filled.lookup (memo.key args) = some args)
    (unwritten : ∀ address ∈ addresses, address ∉ watched.written) :
    Consistent memo
      { watched with
        memo := { watched.memo with
          answers := watched.memo.answers ++ [some addresses] }
        plain := watched.plain ++ [memo.source args] } := by
  have hentry := consistent.remembered _ _ found
  obtain ⟨rows, hrows, hobjects⟩ := hentry.faithful args own unwritten
  constructor
  · refine transparent_append consistent.transparent rfl rfl
      (fun _ _ => rfl) ?_
    rw [hrows]
    exact congrArg some hobjects
  · intro given hgiven
    rw [List.mem_append, List.mem_singleton, Option.some.injEq] at hgiven
    cases hgiven with
    | inl h => exact consistent.placed given h
    | inr h =>
        rw [h]
        exact hentry.placed
  · intro key remembered h
    exact (consistent.remembered key remembered h).kept
      (consistent.remembered key remembered h).placed rfl
      (fun hwritten => ⟨hwritten, rfl⟩)

theorem consistent_rejected (consistent : Consistent memo watched)
    {args : Args} (rejected : memo.source args = none)
    (missing : watched.memo.cache.lookup (memo.key args) = none) :
    Consistent memo
      { watched with
        memo := { watched.memo with
          answers := watched.memo.answers ++ [none] }
        plain := watched.plain ++ [memo.source args]
        filled := (memo.key args, args) :: watched.filled } := by
  constructor
  · refine transparent_append consistent.transparent rfl rfl
      (fun _ _ => rfl) ?_
    rw [rejected]
    rfl
  · intro given hgiven
    rw [List.mem_append, List.mem_singleton] at hgiven
    cases hgiven with
    | inl h => exact consistent.placed given h
    | inr h => cases h
  · intro key remembered h
    have hkey : key ≠ memo.key args := by
      intro heq
      rw [heq, missing] at h
      cases h
    refine (consistent.remembered key remembered h).kept
      (consistent.remembered key remembered h).placed ?_
      (fun hwritten => ⟨hwritten, rfl⟩)
    rw [List.lookup_cons, beq_false_of_ne hkey]

theorem consistent_miss (consistent : Consistent memo watched)
    {args : Args} {rows : List Row} (answered : memo.source args = some rows) :
    Consistent memo
      { watched with
        memo :=
          { heap := watched.memo.heap ++ rows
            cache := (memo.key args,
              List.range' watched.memo.heap.length rows.length) ::
                watched.memo.cache
            answers := watched.memo.answers ++
              [some (List.range' watched.memo.heap.length rows.length)] }
        plain := watched.plain ++ [memo.source args]
        filled := (memo.key args, args) :: watched.filled } := by
  have hfresh := placed_fresh watched.memo.heap rows
  have hrows := map_fresh watched.memo.heap rows
  constructor
  · refine transparent_append consistent.transparent rfl rfl ?_ ?_
    · intro addresses hmem
      exact map_append_heap (consistent.placed addresses hmem).bounded rows
    · rw [answered]
      exact congrArg some hrows
  · intro given hgiven
    rw [List.mem_append, List.mem_singleton, Option.some.injEq] at hgiven
    cases hgiven with
    | inl h => exact (consistent.placed given h).append rows
    | inr h =>
        rw [h]
        exact hfresh
  · intro key remembered h
    rw [List.lookup_cons] at h
    by_cases hkey : key = memo.key args
    · rw [hkey, beq_self_eq_true] at h
      cases h
      refine ⟨hfresh, ?_⟩
      intro other hother _
      rw [List.lookup_cons, hkey, beq_self_eq_true] at hother
      cases hother
      exact ⟨rows, answered, hrows⟩
    · rw [beq_false_of_ne hkey] at h
      have hentry := consistent.remembered key remembered h
      refine hentry.kept (hentry.placed.append rows) ?_ ?_
      · rw [List.lookup_cons, beq_false_of_ne hkey]
      · intro hwritten
        exact ⟨hwritten, map_append_heap hentry.placed.bounded rows⟩

theorem lookup_of_filter {cache : List (Key × List Nat)} {key other : Key}
    {addresses : List Nat}
    (h : (cache.filter fun entry => entry.1 ≠ other).lookup key =
      some addresses) : cache.lookup key = some addresses := by
  have hne : key ≠ other := by
    obtain ⟨front, back, hsplit, _⟩ := List.lookup_eq_some_iff.mp h
    have hmem : (key, addresses) ∈
        cache.filter fun entry => entry.1 ≠ other := by
      rw [hsplit]
      exact List.mem_append_right _ List.mem_cons_self
    exact of_decide_eq_true (List.mem_filter.mp hmem).2
  induction cache with
  | nil => cases h
  | cons entry rest ih =>
      obtain ⟨own, addresses⟩ := entry
      rw [List.lookup_cons]
      by_cases hown : own = other
      · rw [List.filter_cons_of_neg (by simp [hown])] at h
        rw [hown, beq_false_of_ne hne]
        exact ih h
      · rw [List.filter_cons_of_pos (by simp [hown]), List.lookup_cons] at h
        cases hkey : key == own with
        | true =>
            rw [hkey] at h
            exact h
        | false =>
            rw [hkey] at h
            exact ih h

theorem consistent_expire (consistent : Consistent memo watched) (key : Key) :
    Consistent memo
      { watched with
        memo := { watched.memo with
          cache := watched.memo.cache.filter fun entry => entry.1 ≠ key } } := by
  refine ⟨consistent.transparent, consistent.placed, ?_⟩
  intro other addresses h
  have hentry := consistent.remembered other addresses (lookup_of_filter h)
  exact hentry.kept hentry.placed rfl (fun hwritten => ⟨hwritten, rfl⟩)

/-- The call that has the object is shown the new content, and no other call
is. -/
theorem transparent_write {answer row address : Nat} {content : Row}
    (consistent : Consistent memo watched)
    (found : watched.memo.address answer row = some address)
    (only : ∀ (other : Nat) addresses,
      watched.memo.answers[other]? = some (some addresses) →
        address ∈ addresses → other = answer) :
    Transparent
      { watched with
        memo := { watched.memo with
          heap := watched.memo.heap.set address content }
        plain := watched.plain.modify answer (Option.map (·.set row content))
        written := address :: watched.written } := by
  have htransparent := consistent.transparent
  unfold Transparent State.shown at htransparent ⊢
  apply List.ext_getElem?
  intro index
  have hindex := congrArg (·[index]?) htransparent
  simp only [List.getElem?_map] at hindex ⊢
  by_cases hown : index = answer
  · subst hown
    rw [List.getElem?_modify_eq]
    obtain ⟨given, hgiven, hrow⟩ := Option.bind_eq_some_iff.mp found
    have hanswer : watched.memo.answers[index]? = some (some given) := by
      cases h : watched.memo.answers[index]? with
      | none =>
          rw [h] at hgiven
          cases hgiven
      | some other =>
          rw [h] at hgiven
          exact congrArg some hgiven
    have hplaced := consistent.placed given (List.mem_of_getElem? hanswer)
    have hinside := hplaced.bounded address (List.mem_of_getElem? hrow)
    have hset := map_set_own hplaced.nodup hrow hinside content
    rw [hanswer] at hindex ⊢
    cases hplain : watched.plain[index]? with
    | none =>
        rw [hplain] at hindex
        cases hindex
    | some own =>
        cases own with
        | none =>
            rw [hplain] at hindex
            cases hindex
        | some rows =>
            rw [hplain] at hindex
            have hobjects : watched.memo.objects given = rows.map some :=
              Option.some.inj (Option.some.inj hindex)
            have hafter : given.map
                ((watched.memo.heap.set address content)[·]?) =
                (rows.set row content).map some := by
              rw [hset, List.map_set]
              exact congrArg (·.set row (some content)) hobjects
            exact congrArg (some ∘ some) hafter
  · rw [List.getElem?_modify_ne _ _ (Ne.symm hown), ← hindex]
    cases h : watched.memo.answers[index]? with
    | none => rfl
    | some given =>
        cases given with
        | none => rfl
        | some addresses =>
            have hother : address ∉ addresses := by
              intro hmem
              exact hown (only index addresses h hmem)
            exact congrArg (some ∘ some) (map_set_other hother content)

theorem consistent_write {answer row address : Nat} {content : Row}
    (consistent : Consistent memo watched)
    (found : watched.memo.address answer row = some address)
    (only : ∀ (other : Nat) addresses,
      watched.memo.answers[other]? = some (some addresses) →
        address ∈ addresses → other = answer) :
    Consistent memo
      { watched with
        memo := { watched.memo with
          heap := watched.memo.heap.set address content }
        plain := watched.plain.modify answer (Option.map (·.set row content))
        written := address :: watched.written } := by
  refine ⟨transparent_write consistent found only, ?_, ?_⟩
  · intro given hgiven
    exact (consistent.placed given hgiven).set address content
  · intro key addresses h
    have hentry := consistent.remembered key addresses h
    refine hentry.kept (hentry.placed.set address content) rfl ?_
    intro hwritten
    have hother : address ∉ addresses := fun hmem =>
      hwritten address hmem List.mem_cons_self
    refine ⟨?_, map_set_other hother content⟩
    intro own hown
    exact mt (List.mem_cons_of_mem address) (hwritten own hown)

theorem consistent_no_write {answer row : Nat} (content : Row)
    (consistent : Consistent memo watched)
    (missing : watched.memo.address answer row = none) :
    Consistent memo
      { watched with
        plain := watched.plain.modify answer
          (Option.map (·.set row content)) } := by
  refine ⟨?_, consistent.placed, ?_⟩
  · have hplain : watched.plain.modify answer
        (Option.map (·.set row content)) = watched.plain := by
      apply List.ext_getElem?
      intro index
      by_cases hown : index = answer
      · subst hown
        rw [List.getElem?_modify_eq]
        exact unchanged_row consistent.transparent missing content
      · exact List.getElem?_modify_ne _ _ (Ne.symm hown)
    unfold Transparent
    rw [hplain]
    exact consistent.transparent
  · intro key addresses h
    have hentry := consistent.remembered key addresses h
    exact hentry.kept hentry.placed rfl (fun hwritten => ⟨hwritten, rfl⟩)

theorem consistent_watch {event : Event Args Key Row}
    {after : Watched Args Key Row} (consistent : Consistent memo watched)
    (apart : Apart memo watched event)
    (h : memo.watch watched event = some after) : Consistent memo after := by
  cases h
  cases event with
  | expire key => exact consistent_expire consistent key
  | write answer row content =>
      dsimp only [next, nextPlain, filledBy, writtenBy]
      cases hfound : watched.memo.address answer row with
      | none => exact consistent_no_write content consistent hfound
      | some address =>
          exact consistent_write consistent hfound (apart address hfound)
  | call args =>
      dsimp only [next, nextPlain, filledBy, writtenBy]
      unfold call
      cases hfound : watched.memo.cache.lookup (memo.key args) with
      | some addresses =>
          obtain ⟨hown, hwritten⟩ := apart addresses hfound
          exact consistent_hit consistent hfound hown hwritten
      | none =>
          dsimp only
          cases hrows : memo.source args with
          | none =>
              have hrejected := consistent_rejected consistent hrows hfound
              rw [hrows] at hrejected
              exact hrejected
          | some rows =>
              have hmiss := consistent_miss consistent hrows
              rw [hrows] at hmiss
              exact hmiss

theorem transparent_of_reachable
    (reached : Reachable memo.watch (Apart memo) Watched.start watched) :
    Transparent watched := by
  have hconsistent : Consistent memo watched := by
    refine reached.invariant (Consistent memo) consistent_start ?_
    intro before event after hbefore hapart hstep
    exact consistent_watch hbefore hapart hstep
  exact hconsistent.transparent

end Runs

end Memo

end TwakeKickstart.Library
