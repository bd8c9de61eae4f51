import TwakeKickstart.Library.Memo
import TwakeKickstart.Library.JsonText
import TwakeKickstart.Library.Text

namespace TwakeKickstart.IdentityServer

open Library

/-! `UserDB.getAll` with a cache in memory, which holds the rows themselves. -/

/-- `[\w-]` -/
def isOrderChar (c : Char) : Bool :=
  c.isAlphanum || c == '_' || c == '-'

/-- The name of a column to order by, as `getAll` lets it through. -/
abbrev Order := { order : String //
  order ≠ "" ∧ order.toList.all isOrderChar = true }

/-- Another order counts as none. -/
def checkedOrder (order : Option String) : Option Order :=
  order.bind fun order =>
    if h : order ≠ "" ∧ order.toList.all isOrderChar = true then
      some ⟨order, h⟩
    else none

structure GetAll where
  table : String
  fields : List String
  order : Option Order
  deriving DecidableEq

namespace GetAll

def cacheKey (args : GetAll) : String :=
  ",".intercalate (args.table :: args.fields) ++
    args.order.elim "" fun order => "_" ++ order.val

end GetAll

/-- A directory that does not change: `getAll` of the backend, `none` when it
is rejected. -/
abbrev Directory (Row : Type) :=
  String → List String → Option String → Option (List Row)

/-- What the cache is filled with, and under which key. -/
def cached {Row : Type} (directory : Directory Row) :
    Memo GetAll String Row where
  key := GetAll.cacheKey
  source args :=
    directory args.table args.fields (args.order.map Subtype.val)

inductive CacheEvent (Row : Type) where
  | getAll (table : String) (fields : List String) (order : Option String)
  | write (answer row : Nat) (content : Row)
  | expire (key : String)

def CacheEvent.effect {Row : Type} :
    CacheEvent Row → Memo.Event GetAll String Row
  | getAll table fields order => .call ⟨table, fields, checkedOrder order⟩
  | write answer row content => .write answer row content
  | expire key => .expire key

section Runs

variable {Row : Type} (directory : Directory Row)

abbrev Watched (Row : Type) := Memo.Watched GetAll String Row

/-- The calls with and without the cache, side by side. -/
def cacheStep (watched : Watched Row) (event : CacheEvent Row) :
    Option (Watched Row) :=
  (cached directory).watch watched event.effect

/-- No entry is used for other arguments than it was made for or after one of
its rows was written to, and a row is written to by the only caller that has
it. -/
def KeptApart (watched : Watched Row) (event : CacheEvent Row) : Prop :=
  Memo.Apart (cached directory) watched event.effect

/-- With the cache every caller has the rows that it would have without. -/
theorem cache_transparent {watched : Watched Row}
    (reached : Reachable (cacheStep directory) (KeptApart directory)
      Memo.Watched.start watched) :
    Memo.Transparent watched := by
  have hreached : Reachable (cached directory).watch
      (Memo.Apart (cached directory)) Memo.Watched.start watched :=
    Reachable.of_map CacheEvent.effect reached
  exact Memo.transparent_of_reachable hreached

end Runs

/-! Names that keep the keys apart. -/

namespace GetAll

def names (args : GetAll) : List String := args.table :: args.fields

/-- A name that has neither the comma nor the underscore of a key. -/
def Plain (args : GetAll) : Prop :=
  ∀ name ∈ args.names, ',' ∉ name.toList ∧ '_' ∉ name.toList

def suffix (order : Option Order) : List Char :=
  order.elim [] fun order => '_' :: order.val.toList

theorem toList_cacheKey (args : GetAll) :
    args.cacheKey.toList =
      [','].intercalate (args.names.map String.toList) ++
        suffix args.order := by
  unfold cacheKey
  rw [String.toList_append, String.toList_intercalate]
  congr 1
  cases args.order with
  | none => rfl
  | some order => exact String.toList_append

theorem suffix_injective : Function.Injective suffix := by
  intro order other h
  cases order with
  | none =>
      cases other with
      | none => rfl
      | some other => cases h
  | some order =>
      cases other with
      | none => cases h
      | some other =>
          have hchars := (List.cons.inj h).2
          exact congrArg some (Subtype.ext (String.toList_injective hchars))

theorem takeWhile_suffix {chars : List Char} (plain : '_' ∉ chars)
    (order : Option Order) :
    (chars ++ suffix order).takeWhile (· != '_') = chars := by
  have hchars : ∀ c ∈ chars, (c != '_') = true := by
    intro c hc
    rw [bne_iff_ne]
    intro heq
    exact plain (heq ▸ hc)
  have hsuffix : (suffix order).takeWhile (· != '_') = [] := by
    cases order with
    | none => rfl
    | some order => rfl
  rw [List.takeWhile_append_of_pos hchars, hsuffix, List.append_nil]

theorem not_mem_intercalate {c separator : Char} (other : c ≠ separator)
    {texts : List (List Char)} (h : ∀ text ∈ texts, c ∉ text) :
    c ∉ [separator].intercalate texts := by
  intro hc
  rcases mem_intercalate hc with hseparator | ⟨text, htext, hmem⟩
  · exact other hseparator
  · exact h text htext hmem

theorem joined_inj {args other : GetAll} (plain : args.Plain)
    (otherPlain : other.Plain)
    (h : [','].intercalate (args.names.map String.toList) =
      [','].intercalate (other.names.map String.toList)) :
    args.names = other.names := by
  have hsplit := congrArg (List.splitOn ',') h
  rw [List.splitOn_intercalate ',' (by
      intro text htext
      obtain ⟨name, hname, rfl⟩ := List.mem_map.mp htext
      exact (plain name hname).1) (by simp [names]),
    List.splitOn_intercalate ',' (by
      intro text htext
      obtain ⟨name, hname, rfl⟩ := List.mem_map.mp htext
      exact (otherPlain name hname).1) (by simp [names])] at hsplit
  have hinjective : Function.Injective String.toList :=
    fun _ _ hsame => String.toList_injective hsame
  exact List.map_injective_iff.mpr hinjective hsplit

theorem cacheKey_inj {args other : GetAll} (plain : args.Plain)
    (otherPlain : other.Plain) (h : args.cacheKey = other.cacheKey) :
    args = other := by
  have hunderscore : ∀ given : GetAll, given.Plain →
      '_' ∉ [','].intercalate (given.names.map String.toList) := by
    intro given hgiven
    apply not_mem_intercalate (by decide)
    intro text htext
    obtain ⟨name, hname, rfl⟩ := List.mem_map.mp htext
    exact (hgiven name hname).2
  have hchars := congrArg String.toList h
  rw [toList_cacheKey, toList_cacheKey] at hchars
  have hjoined := congrArg (List.takeWhile (· != '_')) hchars
  rw [takeWhile_suffix (hunderscore args plain),
    takeWhile_suffix (hunderscore other otherPlain)] at hjoined
  have hnames := joined_inj plain otherPlain hjoined
  rw [hjoined] at hchars
  have horder := suffix_injective (List.append_cancel_left hchars)
  cases args
  cases other
  cases hnames
  cases horder
  rfl

end GetAll

section Plain

variable {Row : Type} {directory : Directory Row}

/-- Plain names, and callers that leave the rows as they are. -/
def CacheEvent.Harmless : CacheEvent Row → Prop
  | .getAll table fields order =>
      GetAll.Plain ⟨table, fields, checkedOrder order⟩
  | .write _ _ _ => False
  | .expire _ => True

/-- What the entries were made for, where all names are plain. -/
structure PlainEntries (watched : Watched Row) : Prop where
  unwritten : watched.written = []
  filled : ∀ entry ∈ watched.filled,
    entry.1 = entry.2.cacheKey ∧ entry.2.Plain
  known : ∀ key addresses, watched.memo.cache.lookup key = some addresses →
    (watched.filled.lookup key).isSome = true

theorem PlainEntries.keptApart {watched : Watched Row}
    {event : CacheEvent Row} (entries : PlainEntries watched)
    (harmless : event.Harmless) : KeptApart directory watched event := by
  cases event with
  | expire key => trivial
  | write answer row content => exact harmless.elim
  | getAll table fields order =>
      intro addresses h
      obtain ⟨args, hargs⟩ :=
        Option.isSome_iff_exists.mp (entries.known _ _ h)
      obtain ⟨hkey, hplain⟩ := entries.filled _ (mem_of_lookup hargs)
      have hsame := GetAll.cacheKey_inj hplain harmless hkey.symm
      rw [entries.unwritten, hargs]
      exact ⟨congrArg some hsame, fun _ _ => List.not_mem_nil⟩

theorem known_cons {key : String} {args : GetAll}
    {filled : List (String × GetAll)} {other : String}
    (h : other ≠ key → (filled.lookup other).isSome = true) :
    (((key, args) :: filled).lookup other).isSome = true := by
  rw [List.lookup_cons]
  cases hother : other == key with
  | true => rfl
  | false => exact h (beq_eq_false_iff_ne.mp hother)

theorem PlainEntries.step {watched after : Watched Row}
    {event : CacheEvent Row} (entries : PlainEntries watched)
    (harmless : event.Harmless)
    (h : cacheStep directory watched event = some after) :
    PlainEntries after := by
  cases h
  cases event with
  | write answer row content => exact harmless.elim
  | expire key =>
      refine ⟨entries.unwritten, entries.filled, ?_⟩
      intro other addresses h
      exact entries.known other addresses (Memo.lookup_of_filter h)
  | getAll table fields order =>
      dsimp only [CacheEvent.effect, Memo.next, Memo.filledBy, Memo.writtenBy]
      unfold Memo.call
      cases hfound : watched.memo.cache.lookup
          ((cached directory).key ⟨table, fields, checkedOrder order⟩) with
      | some addresses =>
          exact ⟨entries.unwritten, entries.filled, entries.known⟩
      | none =>
          have hfilled : ∀ entry ∈
              ((cached directory).key ⟨table, fields, checkedOrder order⟩,
                (⟨table, fields, checkedOrder order⟩ : GetAll)) ::
                  watched.filled,
              entry.1 = entry.2.cacheKey ∧ entry.2.Plain :=
            List.forall_mem_cons.mpr ⟨⟨rfl, harmless⟩, entries.filled⟩
          dsimp only
          cases (cached directory).source
              ⟨table, fields, checkedOrder order⟩ with
          | none =>
              refine ⟨entries.unwritten, hfilled, ?_⟩
              intro other addresses hother
              exact known_cons fun _ => entries.known other addresses hother
          | some rows =>
              refine ⟨entries.unwritten, hfilled, ?_⟩
              intro other addresses hother
              apply known_cons
              intro hne
              rw [List.lookup_cons, beq_false_of_ne hne] at hother
              exact entries.known other addresses hother

theorem plainEntries_start :
    PlainEntries (Memo.Watched.start : Watched Row) := by
  refine ⟨rfl, List.forall_mem_nil _, ?_⟩
  intro key addresses h
  cases h

/-- With plain names, and callers that write nothing, the cache makes no
difference. -/
theorem transparent_of_harmless {watched : Watched Row}
    (reached : Reachable (cacheStep directory)
      (fun _ event => event.Harmless) Memo.Watched.start watched) :
    Memo.Transparent watched := by
  have hboth : PlainEntries watched ∧
      Reachable (cacheStep directory) (KeptApart directory)
        Memo.Watched.start watched := by
    induction reached with
    | refl => exact ⟨plainEntries_start, .refl⟩
    | tail _ harmless stepped ih =>
        exact ⟨ih.1.step harmless stepped,
          ih.2.tail (ih.1.keptApart harmless) stepped⟩
  have hreached : Reachable (cached directory).watch
      (Memo.Apart (cached directory)) Memo.Watched.start watched :=
    Reachable.of_map CacheEvent.effect hboth.2
  exact Memo.transparent_of_reachable hreached

end Plain

/-! A directory of one user. -/

abbrev SampleRow := List (String × String)

def oneUser : Directory SampleRow := fun table fields _ =>
  if table = "users" then
    some [fields.filterMap fun field =>
      ([("uid", "dwho"), ("mail", "dwho@example.com"), ("a", "x"),
        ("a_b", "y")].lookup field).map (field, ·)]
  else some []

/-- The rows that a cron job asks for. -/
def rowsToHash : CacheEvent SampleRow :=
  .getAll "users" ["mobile", "mail", "uid"] none

def anyStep (_ : Watched SampleRow) (_ : CacheEvent SampleRow) : Bool := true

theorem cache_transparent_two_calls :
    ∃ watched, runEvents (cacheStep oneUser) anyStep [rowsToHash, rowsToHash]
        Memo.Watched.start = some watched ∧
      watched.memo.answers = [some [0], some [0]] ∧
      Memo.Transparent watched := by
  refine ⟨_, rfl, rfl, cache_transparent oneUser ?_⟩
  refine @Reachable.tail _ _ _ _ _ _ _ rowsToHash
    (@Reachable.tail _ _ _ _ _ _ _ rowsToHash .refl ?_ rfl) ?_ rfl
  · intro addresses h
    cases h
  · intro addresses h
    exact ⟨rfl, fun address _ => List.not_mem_nil⟩

theorem transparent_of_harmless_two_columns :
    ∃ watched, runEvents (cacheStep oneUser) anyStep
        [.getAll "users" ["mail"] (some "uid"), .expire "users,mail",
          .getAll "users" ["mail", "uid"] none] Memo.Watched.start =
        some watched ∧
      watched.memo.answers.length = 2 ∧ Memo.Transparent watched := by
  have harmless : ∀ fields ∈ [["mail"], ["mail", "uid"]], ∀ order,
      (.getAll "users" fields order : CacheEvent SampleRow).Harmless := by
    intro fields hfields order
    rcases List.mem_pair.mp hfields with rfl | rfl
    · show ∀ name ∈ ["users", "mail"], _
      decide
    · show ∀ name ∈ ["users", "mail", "uid"], _
      decide
  refine ⟨_, rfl, rfl, @transparent_of_harmless _ oneUser _ ?_⟩
  refine @Reachable.tail _ _ _ _ _ _ _
    (.getAll "users" ["mail", "uid"] none)
    (@Reachable.tail _ _ _ _ _ _ _ (.expire "users,mail")
      (@Reachable.tail _ _ _ _ _ _ _ (.getAll "users" ["mail"] (some "uid"))
        .refl ?_ rfl) trivial rfl) ?_ rfl
  · exact harmless _ (by simp) _
  · exact harmless _ (by simp) _

/-- A row that one call marks is marked in the answer to the next. -/
theorem marked_row_is_answered :
    ∃ watched, runEvents (cacheStep oneUser) anyStep
        [rowsToHash,
          .write 0 0 [("mail", "dwho@example.com"), ("uid", "dwho"),
            ("active", "1")],
          rowsToHash] Memo.Watched.start = some watched ∧
      watched.memo.shown[1]? = some (some
        [some [("mail", "dwho@example.com"), ("uid", "dwho"),
          ("active", "1")]]) ∧
      watched.plain[1]? = some (some
        [[("mail", "dwho@example.com"), ("uid", "dwho")]]) ∧
      ¬ Memo.Transparent watched := by
  refine ⟨_, rfl, by decide, by decide, ?_⟩
  intro transparent
  have hsecond := congrArg (·[1]?) transparent
  revert hsecond
  decide

theorem underscore_shares_entry :
    ∃ watched, runEvents (cacheStep oneUser) anyStep
        [.getAll "users" ["a_b"] none, .getAll "users" ["a"] (some "b")]
        Memo.Watched.start = some watched ∧
      watched.memo.shown[1]? = some (some [some [("a_b", "y")]]) ∧
      watched.plain[1]? = some (some [[("a", "x")]]) ∧
      ¬ Memo.Transparent watched := by
  refine ⟨_, rfl, by decide, by decide, ?_⟩
  intro transparent
  have hsecond := congrArg (·[1]?) transparent
  revert hsecond
  decide

end TwakeKickstart.IdentityServer
