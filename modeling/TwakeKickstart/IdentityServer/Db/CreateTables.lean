import Mathlib.Data.List.Nodup
import Mathlib.Data.List.Perm.Basic
import Mathlib.Logic.Function.Basic
import TwakeKickstart.IdentityServer.Db.Store
import TwakeKickstart.Library.EventLoop

namespace TwakeKickstart.IdentityServer

open Library

/-! `createTables`: for each declared table that does not exist, the table, then
its indexes, then its initial rows; the tables side by side. -/

variable {Entry : Type}

/-- A key of `tables`, with what `indexes` and `initializeValues` have for it. -/
structure TableDeclaration (Entry : Type) where
  name : String
  indexes : List String := []
  entries : List Entry := []
  deriving DecidableEq

/-- The keys of an object are distinct. -/
structure Declarations (Entry : Type) where
  tables : List (TableDeclaration Entry)
  distinct : (tables.map TableDeclaration.name).Nodup

structure StoredTable (Entry : Type) where
  indexes : List String := []
  rows : List Entry := []

abbrev StoredTables (Entry : Type) := String → Option (StoredTable Entry)

inductive Statement (Entry : Type) where
  | exists (table : TableDeclaration Entry)
  | create (table : TableDeclaration Entry)
  | createIndex (table : TableDeclaration Entry) (index : String)
  | insert (table : TableDeclaration Entry) (entry : Entry)
  deriving DecidableEq

namespace Statement

def table : Statement Entry → TableDeclaration Entry
  | .exists table | .create table | .createIndex table _ | .insert table _ =>
      table

/-- The database refuses a table that it has, and an index or a row of one that
it has not. -/
def accepted (database : StoredTables Entry) : Statement Entry → Bool
  | .exists _ => true
  | .create table => (database table.name).isNone
  | .createIndex table _ | .insert table _ => (database table.name).isSome

def apply (database : StoredTables Entry) :
    Statement Entry → StoredTables Entry
  | .exists _ => database
  | .create table => Function.update database table.name (some {})
  | .createIndex table index =>
      Function.update database table.name ((database table.name).map
        fun stored => { stored with indexes := index :: stored.indexes })
  | .insert table entry =>
      Function.update database table.name ((database table.name).map
        fun stored => { stored with rows := entry :: stored.rows })

end Statement

/-- A statement that fails may have been carried out all the same. -/
structure StatementOutcome where
  ok : Bool
  applied : Bool

/-- `executed` is what the database has carried out; `indexing` counts, for a
table, the indexes that `Promise.all` waits for. -/
structure Initialisation (Entry : Type) where
  database : StoredTables Entry
  executed : List (Statement Entry) := []
  indexing : String → Nat := fun _ => 0
  rejected : Bool := false

namespace Initialisation

def carryOut (outcome : StatementOutcome) (statement : Statement Entry)
    (vars : Initialisation Entry) : Initialisation Entry :=
  if statement.accepted vars.database && (outcome.ok || outcome.applied) then
    { vars with
      database := statement.apply vars.database
      executed := vars.executed ++ [statement] }
  else vars

def reject (vars : Initialisation Entry) : Initialisation Entry :=
  { vars with rejected := true }

def insertEntries (table : TableDeclaration Entry) : List (Statement Entry) :=
  table.entries.map (.insert table)

def createIndexes (table : TableDeclaration Entry)
    (vars : Initialisation Entry) :
    Initialisation Entry × List (Statement Entry) :=
  if table.indexes = [] then (vars, insertEntries table)
  else
    ({ vars with
        indexing := Function.update vars.indexing table.name
          table.indexes.length },
      table.indexes.map (.createIndex table))

def onExists (engine : SupportedDatabases) (ok : Bool)
    (table : TableDeclaration Entry) (vars : Initialisation Entry) :
    Initialisation Entry × List (Statement Entry) :=
  if ok then
    if (vars.database table.name).isSome then (vars, [])
    else (vars, [.create table])
  else
    match engine with
    -- `exists` of PostgreSQL assumes false.
    | .pg => (vars, [.create table])
    | .sqlite => (vars.reject, [])

/-- An index that could not be created is logged and left. -/
def onCreateIndex (table : TableDeclaration Entry)
    (vars : Initialisation Entry) :
    Initialisation Entry × List (Statement Entry) :=
  let waiting := vars.indexing table.name - 1
  ({ vars with indexing := Function.update vars.indexing table.name waiting },
    if waiting = 0 then insertEntries table else [])

def react (engine : SupportedDatabases) (outcome : StatementOutcome)
    (statement : Statement Entry) (vars : Initialisation Entry) :
    Initialisation Entry × List (Statement Entry) :=
  let ok := outcome.ok && statement.accepted vars.database
  let vars := vars.carryOut outcome statement
  match statement with
  | .exists table => onExists engine ok table vars
  | .create table => if ok then createIndexes table vars else (vars.reject, [])
  | .createIndex table _ => onCreateIndex table vars
  | .insert _ _ => if ok then (vars, []) else (vars.reject, [])

end Initialisation

abbrev CreateTables (Entry : Type) :=
  Loop (Statement Entry) (Initialisation Entry)

def createTables (declarations : Declarations Entry)
    (database : StoredTables Entry) : CreateTables Entry where
  vars := { database }
  pending := declarations.tables.map .exists

def CreateTables.step (engine : SupportedDatabases)
    (loop : CreateTables Entry) (event : Nat × StatementOutcome) :
    Option (CreateTables Entry) :=
  loop.complete (Initialisation.react engine) event.1 event.2

/-- The statement that settles has succeeded. -/
def Succeeds (loop : CreateTables Entry) (event : Nat × StatementOutcome) :
    Prop :=
  event.2.ok = true ∧ ∀ statement ∈ loop.pending[event.1]?,
    statement.accepted loop.vars.database = true

/-- The table exists with its indexes, and each initial row is there once for
each time that it is declared. -/
def Complete [DecidableEq Entry] (database : StoredTables Entry)
    (table : TableDeclaration Entry) : Prop :=
  ∃ stored, database table.name = some stored ∧
    (∀ index ∈ table.indexes, index ∈ stored.indexes) ∧
    ∀ entry ∈ table.entries,
      stored.rows.count entry = table.entries.count entry

/-- The indexes have been created and the initial rows inserted. -/
def Finished [DecidableEq Entry] (executed : List (Statement Entry))
    (table : TableDeclaration Entry) : Prop :=
  (∀ index ∈ table.indexes, .createIndex table index ∈ executed) ∧
  ∀ entry ∈ table.entries,
    executed.count (.insert table entry) = table.entries.count entry

section Reaction

variable {engine : SupportedDatabases} {outcome : StatementOutcome}
variable {statement : Statement Entry} {vars : Initialisation Entry}

theorem apply_other {database : StoredTables Entry} {name : String}
    (h : name ≠ statement.table.name) :
    statement.apply database name = database name := by
  cases statement with
  | «exists» _ => rfl
  | create _ => exact Function.update_of_ne h _ _
  | createIndex _ _ => exact Function.update_of_ne h _ _
  | insert _ _ => exact Function.update_of_ne h _ _

theorem carryOut_cases (outcome : StatementOutcome)
    (statement : Statement Entry) (vars : Initialisation Entry) :
    vars.carryOut outcome statement = vars ∨
    statement.accepted vars.database = true ∧
      vars.carryOut outcome statement =
        { vars with
          database := statement.apply vars.database
          executed := vars.executed ++ [statement] } := by
  unfold Initialisation.carryOut
  split
  · rename_i hexecuted
    exact .inr ⟨(Bool.and_eq_true_iff.mp hexecuted).1, rfl⟩
  · exact .inl rfl

theorem carryOut_other {name : String} (h : name ≠ statement.table.name) :
    (vars.carryOut outcome statement).database name = vars.database name := by
  rcases carryOut_cases outcome statement vars with heq | ⟨_, heq⟩
  · rw [heq]
  · rw [heq]
    exact apply_other h

theorem carryOut_indexing :
    (vars.carryOut outcome statement).indexing = vars.indexing := by
  rcases carryOut_cases outcome statement vars with heq | ⟨_, heq⟩
  · rw [heq]
  · rw [heq]

theorem carryOut_ok (ok : outcome.ok = true)
    (accepted : statement.accepted vars.database = true) :
    vars.carryOut outcome statement =
      { vars with
        database := statement.apply vars.database
        executed := vars.executed ++ [statement] } := by
  unfold Initialisation.carryOut
  rw [accepted, ok]
  rfl

/-- What follows a statement of a table concerns the same table, and its
indexes and rows follow when the table has been created. -/
structure Follows (vars : Initialisation Entry) (statement : Statement Entry)
    (indexing : String → Nat) (issued : List (Statement Entry)) : Prop where
  others : ∀ name, name ≠ statement.table.name →
    indexing name = vars.indexing name
  table : ∀ other ∈ issued, other.table = statement.table
  filling : ∀ other ∈ issued, (∀ table, other ≠ .create table) →
    statement.accepted vars.database = true ∧
      statement = .create statement.table ∨
    ∃ index, statement = .createIndex statement.table index

theorem react_cases (engine : SupportedDatabases) (outcome : StatementOutcome)
    (statement : Statement Entry) (vars : Initialisation Entry) :
    ∃ indexing rejected issued,
      Initialisation.react engine outcome statement vars =
        ({ vars.carryOut outcome statement with indexing, rejected },
          issued) ∧ Follows vars statement indexing issued := by
  have hsame : (vars.carryOut outcome statement).indexing = vars.indexing :=
    carryOut_indexing
  have hentries : ∀ {table : TableDeclaration Entry} {other},
      other ∈ Initialisation.insertEntries table → other.table = table := by
    intro table other hother
    obtain ⟨entry, _, rfl⟩ := List.mem_map.mp hother
    rfl
  have hnothing : Follows vars statement
      (vars.carryOut outcome statement).indexing [] :=
    ⟨fun _ _ => (by rw [hsame]), fun _ h => (by cases h),
      fun _ h => (by cases h)⟩
  cases statement with
  | «exists» table =>
      have hcreate : Follows vars (.exists table)
          (vars.carryOut outcome (.exists table)).indexing [.create table] := by
        refine ⟨fun _ _ => (by rw [hsame]), fun other hother => ?_,
          fun other hother hfilling => ?_⟩
        · rw [List.mem_singleton.mp hother]
          rfl
        · exact absurd (List.mem_singleton.mp hother) (hfilling table)
      simp only [Initialisation.react, Initialisation.onExists]
      split
      · split
        · exact ⟨_, _, _, rfl, hnothing⟩
        · exact ⟨_, _, _, rfl, hcreate⟩
      · split
        · exact ⟨_, _, _, rfl, hcreate⟩
        · exact ⟨_, _, _, rfl, hnothing⟩
  | create table =>
      simp only [Initialisation.react, Initialisation.createIndexes]
      split
      · rename_i hok
        have haccepted := (Bool.and_eq_true_iff.mp hok).2
        split
        · refine ⟨(vars.carryOut outcome (.create table)).indexing,
            (vars.carryOut outcome (.create table)).rejected, _, rfl,
            fun _ _ => (by rw [hsame]), fun other hother => hentries hother,
            fun _ _ _ => .inl ⟨haccepted, rfl⟩⟩
        · refine ⟨_, (vars.carryOut outcome (.create table)).rejected, _, rfl,
            fun name hname => ?_, fun other hother => ?_,
            fun _ _ _ => .inl ⟨haccepted, rfl⟩⟩
          · have hother : name ≠ table.name := hname
            rw [Function.update_of_ne hother, hsame]
          · obtain ⟨index, _, rfl⟩ := List.mem_map.mp hother
            rfl
      · exact ⟨_, _, _, rfl, hnothing⟩
  | createIndex table index =>
      simp only [Initialisation.react, Initialisation.onCreateIndex]
      refine ⟨_, (vars.carryOut outcome (.createIndex table index)).rejected, _,
        rfl, fun name hname => ?_, fun other hother => ?_,
        fun _ _ _ => .inr ⟨index, rfl⟩⟩
      · have hother : name ≠ table.name := hname
        rw [Function.update_of_ne hother, hsame]
      · split at hother
        · exact hentries hother
        · cases hother
  | insert table entry =>
      simp only [Initialisation.react]
      split
      · exact ⟨_, _, _, rfl, hnothing⟩
      · exact ⟨_, _, _, rfl, hnothing⟩

theorem react_database :
    (Initialisation.react engine outcome statement vars).1.database =
      (vars.carryOut outcome statement).database := by
  obtain ⟨_, _, _, hreact, _⟩ := react_cases engine outcome statement vars
  rw [hreact]

end Reaction

/-! A run whose statements all succeed, table by table. -/

/-- How far the run is with one table: the statements it has pending for it,
the indexes it waits for, and what the database has, in terms of what it had
before the run. -/
inductive TableProgress (table : TableDeclaration Entry)
    (before : Option (StoredTable Entry)) :
    List (Statement Entry) → Nat → Option (StoredTable Entry) → Prop
  | asking {waiting : Nat} :
      TableProgress table before [.exists table] waiting before
  | creating {waiting : Nat} (new : before = none) :
      TableProgress table before [.create table] waiting none
  | indexing {created remaining : List String} (new : before = none)
      (some : remaining ≠ [])
      (all : (created ++ remaining).Perm table.indexes) :
      TableProgress table before (remaining.map (.createIndex table))
        remaining.length (.some ⟨created, []⟩)
  | seeding {waiting : Nat} {created : List String}
      {inserted remaining : List Entry} (new : before = none)
      (indexes : created.Perm table.indexes)
      (all : (inserted ++ remaining).Perm table.entries) :
      TableProgress table before (remaining.map (.insert table)) waiting
        (.some ⟨created, inserted⟩)
  | kept {waiting : Nat} (old : before.isSome = true) :
      TableProgress table before [] waiting before

theorem TableProgress.final {table : TableDeclaration Entry}
    {before now : Option (StoredTable Entry)} {waiting : Nat}
    (progress : TableProgress table before [] waiting now) :
    before.isSome = true ∧ now = before ∨
    before = none ∧ ∃ stored, now = some stored ∧
      stored.indexes.Perm table.indexes ∧ stored.rows.Perm table.entries := by
  generalize hpending : ([] : List (Statement Entry)) = pending at progress
  cases progress with
  | asking => cases hpending
  | creating _ => cases hpending
  | indexing _ some _ => exact absurd (List.map_eq_nil_iff.mp hpending.symm) some
  | seeding new indexes all =>
      rw [List.map_eq_nil_iff.mp hpending.symm, List.append_nil] at all
      exact .inr ⟨new, _, rfl, indexes, all⟩
  | kept old => exact .inl ⟨old, rfl⟩

theorem perm_moved {α : Type} {item : α} {done remaining rest whole : List α}
    (all : (done ++ remaining).Perm whole)
    (perm : remaining.Perm (item :: rest)) :
    ((item :: done) ++ rest).Perm whole := by
  have hfront : ((item :: done) ++ rest).Perm (done ++ item :: rest) :=
    List.perm_middle.symm
  exact hfront.trans ((perm.symm.append_left done).trans all)

theorem perm_of_map_cons {α β : Type} {f : α → β} {x : β}
    {items : List α} {others : List β}
    (perm : (items.map f).Perm (x :: others)) :
    ∃ item rest, items.Perm (item :: rest) ∧ x = f item ∧
      (rest.map f).Perm others := by
  obtain ⟨item, hitem, hx⟩ := List.mem_map.mp
    (perm.mem_iff.mpr List.mem_cons_self)
  obtain ⟨before, after, rfl⟩ := List.append_of_mem hitem
  refine ⟨item, before ++ after, List.perm_middle, hx.symm, ?_⟩
  have hsplit : ((before ++ item :: after).map f).Perm
      ((item :: (before ++ after)).map f) := List.perm_middle.map f
  rw [List.map_cons, hx] at hsplit
  exact (hsplit.symm.trans perm).cons_inv

section Succeeding

variable {engine : SupportedDatabases} {outcome : StatementOutcome}
variable {statement : Statement Entry} {vars : Initialisation Entry}
variable {table : TableDeclaration Entry}
variable {before : Option (StoredTable Entry)}
variable {pending others : List (Statement Entry)}

theorem TableProgress.seed {waiting : Nat} {created : List String}
    (new : before = none) (indexes : created.Perm table.indexes) :
    TableProgress table before (Initialisation.insertEntries table) waiting
      (some ⟨created, []⟩) :=
  .seeding new indexes (.refl _)

theorem TableProgress.react
    (progress : TableProgress table before pending (vars.indexing table.name)
      (vars.database table.name))
    (perm : pending.Perm (statement :: others)) (ok : outcome.ok = true)
    (accepted : statement.accepted vars.database = true) :
    ∃ owned, (others ++
        (Initialisation.react engine outcome statement vars).2).Perm owned ∧
      TableProgress table before owned
        ((Initialisation.react engine outcome statement vars).1.indexing
          table.name)
        ((Initialisation.react engine outcome statement vars).1.database
          table.name) := by
  rw [react_database, carryOut_ok ok accepted]
  generalize hwaiting : vars.indexing table.name = waiting at progress
  generalize hnow : vars.database table.name = now at progress
  cases progress with
  | asking =>
      obtain ⟨rfl, rfl⟩ := List.cons.inj (List.singleton_perm.mp perm)
      simp only [Initialisation.react, ok, accepted, Bool.and_self,
        Initialisation.onExists, if_true, Statement.apply,
        carryOut_ok ok accepted, hnow]
      cases before with
      | some stored =>
          refine ⟨[], ?_, ?_⟩
          · simp
          · exact .kept rfl
      | none =>
          refine ⟨[.create table], ?_, ?_⟩
          · simp
          · exact .creating rfl
  | creating new =>
      obtain ⟨rfl, rfl⟩ := List.cons.inj (List.singleton_perm.mp perm)
      simp only [Initialisation.react, ok, accepted, Bool.and_self, if_true,
        Initialisation.createIndexes, Statement.apply, Function.update_self]
      split
      · rename_i hnone
        refine ⟨Initialisation.insertEntries table, .refl _, ?_⟩
        exact .seed new (hnone ▸ .refl _)
      · rename_i hsome
        refine ⟨table.indexes.map (.createIndex table), .refl _, ?_⟩
        simp only [Function.update_self]
        exact .indexing new hsome (.refl _)
  | indexing new some all =>
      rename_i created remaining
      obtain ⟨index, rest, hremaining, rfl, hothers⟩ := perm_of_map_cons perm
      have hall := perm_moved all hremaining
      have hlength : remaining.length - 1 = rest.length := by
        rw [hremaining.length_eq]
        rfl
      simp only [Initialisation.react, Initialisation.onCreateIndex,
        carryOut_indexing, hwaiting, Statement.apply, Function.update_self, hnow,
        Option.map_some, hlength]
      cases rest with
      | nil =>
          refine ⟨Initialisation.insertEntries table, ?_, ?_⟩
          · rw [List.map_nil, List.nil_perm] at hothers
            rw [hothers]
            exact .refl _
          · rw [List.append_nil] at hall
            exact .seed new hall
      | cons next rest =>
          refine ⟨(next :: rest).map (.createIndex table), ?_, ?_⟩
          · simpa using hothers.symm
          · exact .indexing new (List.cons_ne_nil _ _) hall
  | seeding new indexes all =>
      rename_i created inserted remaining
      obtain ⟨entry, rest, hremaining, rfl, hothers⟩ := perm_of_map_cons perm
      have hall := perm_moved all hremaining
      simp only [Initialisation.react, ok, accepted, Bool.and_self, if_true,
        Statement.apply, Function.update_self, hnow, Option.map_some]
      refine ⟨rest.map (.insert table), ?_, .seeding new indexes hall⟩
      rw [List.append_nil]
      exact hothers.symm
  | kept old => exact absurd perm.symm (by simp)

end Succeeding

theorem Declarations.eq_of_name {declarations : Declarations Entry}
    {table other : TableDeclaration Entry}
    (declared : table ∈ declarations.tables)
    (otherDeclared : other ∈ declarations.tables)
    (sameName : table.name = other.name) : table = other :=
  List.inj_on_of_nodup_map declarations.distinct declared otherDeclared sameName

section Runs

variable [DecidableEq Entry] {engine : SupportedDatabases}
variable {declarations : Declarations Entry}
variable {start before : StoredTables Entry}
variable {loop after : CreateTables Entry} {event : Nat × StatementOutcome}

structure Tracked (declarations : Declarations Entry)
    (before : StoredTables Entry) (loop : CreateTables Entry) : Prop where
  known : ∀ statement ∈ loop.pending, statement.table ∈ declarations.tables
  phases : ∀ table ∈ declarations.tables, ∃ owned,
    (loop.pending.filter (·.table = table)).Perm owned ∧
    TableProgress table (before table.name) owned (loop.vars.indexing table.name)
      (loop.vars.database table.name)

theorem tracked_createTables :
    Tracked declarations before (createTables declarations before) := by
  refine ⟨fun statement hstatement => ?_, fun table htable => ?_⟩
  · obtain ⟨table, htable, rfl⟩ := List.mem_map.mp hstatement
    exact htable
  · refine ⟨[.exists table], .of_eq ?_, .asking⟩
    have hnodup : declarations.tables.Nodup :=
      List.Nodup.of_map _ declarations.distinct
    simp only [createTables, List.filter_map]
    have hfilter : declarations.tables.filter
        ((fun statement : Statement Entry => decide (statement.table = table)) ∘
          Statement.exists) = [table] := by
      have hsame : ((fun statement : Statement Entry =>
          decide (statement.table = table)) ∘ Statement.exists) =
            (· == table) := by
        funext other
        exact (beq_eq_decide other table).symm
      rw [hsame, List.filter_beq, List.count_eq_one_of_mem hnodup htable]
      rfl
    rw [hfilter]
    rfl

theorem Tracked.step (tracked : Tracked declarations before loop)
    (succeeds : Succeeds loop event)
    (stepped : loop.step engine event = some after) :
    Tracked declarations before after := by
  obtain ⟨index, outcome⟩ := event
  obtain ⟨hok, haccepted⟩ := succeeds
  obtain ⟨statement, hstatement, hcompletes⟩ := Loop.complete_cases stepped
  obtain ⟨indexing, rejected, issued, hreact, hfollows⟩ :=
    react_cases engine outcome statement loop.vars
  have hknown := tracked.known statement (List.mem_of_getElem? hstatement)
  refine ⟨fun other hother => ?_, fun table htable => ?_⟩
  · rcases hcompletes.mem_after hother with ⟨_, hold⟩ | hissued
    · exact tracked.known other hold
    · rw [hreact] at hissued
      rw [hfollows.table other hissued]
      exact hknown
  · obtain ⟨owned, hperm, hphase⟩ := tracked.phases table htable
    have hbefore := hcompletes.pending.filter (·.table = table)
    rw [hcompletes.issued, List.filter_append, hcompletes.vars]
    by_cases hsame : statement.table = table
    · rw [List.filter_cons_of_pos (by simpa using hsame)] at hbefore
      have hissued : ((Initialisation.react engine outcome statement
          loop.vars).2.filter (·.table = table)) =
            (Initialisation.react engine outcome statement loop.vars).2 := by
        refine List.filter_eq_self.mpr fun other hother => ?_
        rw [hreact] at hother
        simpa [hfollows.table other hother] using hsame
      rw [hissued]
      exact hphase.react (hperm.symm.trans hbefore) hok
        (haccepted statement hstatement)
    · have hname : table.name ≠ statement.table.name := fun heq =>
        hsame (Declarations.eq_of_name hknown htable heq.symm)
      rw [List.filter_cons_of_neg (by simpa using hsame)] at hbefore
      have hissued : ((Initialisation.react engine outcome statement
          loop.vars).2.filter (·.table = table)) = [] := by
        refine List.filter_eq_nil_iff.mpr fun other hother => ?_
        rw [hreact] at hother
        simpa [hfollows.table other hother] using hsame
      refine ⟨owned, ?_, ?_⟩
      · rw [hissued, List.append_nil]
        exact hbefore.symm.trans hperm
      · rw [hreact]
        simp only
        rw [hfollows.others _ hname, carryOut_other hname]
        exact hphase

theorem succeeded_leaves
    (later : Reachable (CreateTables.step engine) Succeeds
      (createTables declarations before) loop)
    (finished : loop.pending = []) {table : TableDeclaration Entry}
    (declared : table ∈ declarations.tables) :
    (before table.name).isSome = true ∧
      loop.vars.database table.name = before table.name ∨
    before table.name = none ∧ Complete loop.vars.database table := by
  have htracked : Tracked declarations before loop :=
    later.invariant (Tracked declarations before) tracked_createTables
      fun _ _ _ tracked succeeds stepped => tracked.step succeeds stepped
  obtain ⟨owned, hperm, hphase⟩ := htracked.phases table declared
  rw [finished, List.filter_nil, List.nil_perm] at hperm
  subst hperm
  rcases hphase.final with hkept | ⟨hnew, stored, hstored, hindexes, hrows⟩
  · exact .inl hkept
  · exact .inr ⟨hnew, stored, hstored,
      fun index hindex => hindexes.mem_iff.mpr hindex,
      fun entry _ => hrows.count_eq entry⟩

/-! A run that may stop anywhere. -/

/-- The database has of the table what has been carried out. -/
structure Traced (start : StoredTables Entry) (vars : Initialisation Entry)
    (table : TableDeclaration Entry) : Prop where
  kept : (start table.name).isSome = true →
    vars.database table.name = start table.name ∧
      .create table ∉ vars.executed
  absent : vars.database table.name = none →
    ∀ statement ∈ vars.executed, statement.table = table →
      statement = .exists table
  written : start table.name = none →
    ∀ stored, vars.database table.name = some stored →
    .create table ∈ vars.executed ∧
    (∀ index, index ∈ stored.indexes ↔
      .createIndex table index ∈ vars.executed) ∧
    ∀ entry, stored.rows.count entry =
      vars.executed.count (.insert table entry)

/-- The statement fills a table that is new. -/
def Fills (start : StoredTables Entry) (statement : Statement Entry) : Prop :=
  statement ≠ .exists statement.table → statement ≠ .create statement.table →
    start statement.table.name = none

section Traced

variable {vars : Initialisation Entry} {table : TableDeclaration Entry}
variable {outcome : StatementOutcome} {statement : Statement Entry}

theorem Traced.new (traced : Traced start vars table)
    (accepted : (Statement.create table).accepted vars.database = true) :
    start table.name = none := by
  cases hold : start table.name with
  | none => rfl
  | some stored =>
      have hkept := (traced.kept (by rw [hold]; rfl)).1
      simp only [Statement.accepted, hkept, hold] at accepted
      cases accepted

theorem Traced.other (traced : Traced start vars table)
    (others : statement.table ≠ table)
    (names : table.name ≠ statement.table.name) :
    Traced start (vars.carryOut outcome statement) table := by
  have hdatabase : (vars.carryOut outcome statement).database table.name =
      vars.database table.name := carryOut_other names
  have hmem : ∀ own : Statement Entry, own.table = table →
      (own ∈ (vars.carryOut outcome statement).executed ↔
        own ∈ vars.executed) ∧
      (vars.carryOut outcome statement).executed.count own =
        vars.executed.count own := by
    intro own hown
    have hne : statement ≠ own := fun heq => others (heq ▸ hown)
    rcases carryOut_cases outcome statement vars with heq | ⟨_, heq⟩
    · rw [heq]
      exact ⟨.rfl, rfl⟩
    · rw [heq]
      simp [hne.symm, hne]
  refine ⟨fun hold => ?_, fun hnone own hmember hown => ?_,
    fun hnew stored hstored => ?_⟩
  · rw [hdatabase, (hmem (.create table) rfl).1]
    exact traced.kept hold
  · rw [hdatabase] at hnone
    exact traced.absent hnone own ((hmem own hown).1.mp hmember) hown
  · rw [hdatabase] at hstored
    obtain ⟨hcreate, hindexes, hrows⟩ := traced.written hnew stored hstored
    refine ⟨(hmem (.create table) rfl).1.mpr hcreate, fun index => ?_,
      fun entry => ?_⟩
    · rw [(hmem (.createIndex table index) rfl).1]
      exact hindexes index
    · rw [(hmem (.insert table entry) rfl).2]
      exact hrows entry

theorem Traced.written_new {stored : StoredTable Entry}
    {database : StoredTables Entry} {executed : List (Statement Entry)}
    (new : start table.name = none)
    (now : database table.name = some stored)
    (created : .create table ∈ executed)
    (indexes : ∀ index, index ∈ stored.indexes ↔
      .createIndex table index ∈ executed)
    (rows : ∀ entry, stored.rows.count entry =
      executed.count (.insert table entry)) :
    Traced start { vars with database, executed } table := by
  refine ⟨fun hold => ?_, fun habsent => ?_, fun _ other hother => ?_⟩
  · rw [new] at hold
    cases hold
  · cases now.symm.trans habsent
  · cases now.symm.trans hother
    exact ⟨created, indexes, rows⟩

theorem Traced.looked (traced : Traced start vars table) :
    Traced start
      { vars with executed := vars.executed ++ [.exists table] } table := by
  refine ⟨fun hold => ?_, fun hnone own hmember hown => ?_,
    fun hnew stored hstored => ?_⟩
  · simpa using traced.kept hold
  · rcases List.mem_append.mp hmember with hbefore | hlast
    · exact traced.absent hnone own hbefore hown
    · exact List.mem_singleton.mp hlast
  · simpa using traced.written hnew stored hstored

theorem Traced.create (traced : Traced start vars table)
    (accepted : (Statement.create table).accepted vars.database = true) :
    Traced start
      { vars with
        database := (Statement.create table).apply vars.database
        executed := vars.executed ++ [.create table] } table := by
  have hnone : vars.database table.name = none :=
    Option.isNone_iff_eq_none.mp accepted
  have hunwritten : ∀ own : Statement Entry, own.table = table →
      own ≠ .exists table → own ∉ vars.executed :=
    fun own hown hne hmember =>
      hne (traced.absent hnone own hmember hown)
  apply Traced.written_new (traced.new accepted)
    (Function.update_self table.name _ vars.database)
  · simp
  · intro index
    have habsent := hunwritten (.createIndex table index) rfl
      (fun h => by cases h)
    simp [habsent]
  · intro entry
    have habsent := hunwritten (.insert table entry) rfl
      (fun h => by cases h)
    simp [List.count_eq_zero_of_not_mem habsent]

theorem Traced.createIndex (traced : Traced start vars table) {index : String}
    (new : start table.name = none)
    (accepted : (Statement.createIndex table index).accepted vars.database =
      true) :
    Traced start
      { vars with
        database := (Statement.createIndex table index).apply vars.database
        executed := vars.executed ++ [.createIndex table index] } table := by
  obtain ⟨old, hold⟩ := Option.isSome_iff_exists.mp accepted
  obtain ⟨hcreate, hindexes, hrows⟩ := traced.written new old hold
  have hnow : (Statement.createIndex table index).apply vars.database
      table.name = some { old with indexes := index :: old.indexes } := by
    simp [Statement.apply, hold]
  apply Traced.written_new new hnow
  · exact List.mem_append_left _ hcreate
  · intro other
    rw [List.mem_cons, List.mem_append, hindexes other, List.mem_singleton]
    simp [or_comm]
  · intro entry
    rw [hrows entry]
    simp

theorem Traced.insert (traced : Traced start vars table) {entry : Entry}
    (new : start table.name = none)
    (accepted : (Statement.insert table entry).accepted vars.database =
      true) :
    Traced start
      { vars with
        database := (Statement.insert table entry).apply vars.database
        executed := vars.executed ++ [.insert table entry] } table := by
  obtain ⟨old, hold⟩ := Option.isSome_iff_exists.mp accepted
  obtain ⟨hcreate, hindexes, hrows⟩ := traced.written new old hold
  have hnow : (Statement.insert table entry).apply vars.database
      table.name = some { old with rows := entry :: old.rows } := by
    simp [Statement.apply, hold]
  apply Traced.written_new new hnow
  · exact List.mem_append_left _ hcreate
  · intro index
    rw [hindexes index]
    simp
  · intro other
    rw [List.count_append, List.count_cons, hrows other, List.count_singleton]
    simp

theorem Traced.own (traced : Traced start vars statement.table)
    (fills : Fills start statement) :
    Traced start (vars.carryOut outcome statement) statement.table := by
  rcases carryOut_cases outcome statement vars with
    hskipped | ⟨haccepted, hcarried⟩
  · rw [hskipped]
    exact traced
  · rw [hcarried]
    cases statement with
    | «exists» table => exact traced.looked
    | create table => exact traced.create haccepted
    | createIndex table index =>
        exact traced.createIndex
          (fills (fun h => by cases h) (fun h => by cases h)) haccepted
    | insert table entry =>
        exact traced.insert
          (fills (fun h => by cases h) (fun h => by cases h)) haccepted

end Traced

structure TracedRun (declarations : Declarations Entry)
    (start : StoredTables Entry) (loop : CreateTables Entry) : Prop where
  known : ∀ statement ∈ loop.pending, statement.table ∈ declarations.tables
  tables : ∀ table ∈ declarations.tables, Traced start loop.vars table
  fills : ∀ statement ∈ loop.pending, Fills start statement

theorem traced_createTables :
    TracedRun declarations start (createTables declarations start) := by
  refine ⟨fun statement hstatement => ?_, fun table _ => ⟨fun _ => ?_,
    fun _ _ h => (by cases h), fun hnone stored hstored => ?_⟩,
    fun statement hstatement hexists _ => ?_⟩
  · obtain ⟨table, htable, rfl⟩ := List.mem_map.mp hstatement
    exact htable
  · exact ⟨rfl, fun h => by cases h⟩
  · change start table.name = some stored at hstored
    rw [hnone] at hstored
    cases hstored
  · obtain ⟨table, _, rfl⟩ := List.mem_map.mp hstatement
    exact absurd rfl hexists

theorem TracedRun.step (traced : TracedRun declarations start loop)
    (stepped : loop.step engine event = some after) :
    TracedRun declarations start after := by
  obtain ⟨index, outcome⟩ := event
  obtain ⟨statement, hstatement, hcompletes⟩ := Loop.complete_cases stepped
  obtain ⟨indexing, rejected, issued, hreact, hfollows⟩ :=
    react_cases engine outcome statement loop.vars
  have hmem := List.mem_of_getElem? hstatement
  have hknown := traced.known statement hmem
  have hissued : ∀ other ∈ after.pending, other ∈ loop.pending ∨
      other ∈ issued := by
    intro other hother
    rcases hcompletes.mem_after hother with ⟨_, hold⟩ | hnew
    · exact .inl hold
    · rw [hreact] at hnew
      exact .inr hnew
  refine ⟨fun other hother => ?_, fun table htable => ?_,
    fun other hother => ?_⟩
  · rcases hissued other hother with hold | hnew
    · exact traced.known other hold
    · rw [hfollows.table other hnew]
      exact hknown
  · have hcarried : Traced start (loop.vars.carryOut outcome statement)
        table := by
      by_cases hsame : statement.table = table
      · subst hsame
        exact (traced.tables _ htable).own (traced.fills statement hmem)
      · exact (traced.tables table htable).other hsame fun heq =>
          hsame (Declarations.eq_of_name hknown htable heq.symm)
    rw [hcompletes.vars, hreact]
    exact ⟨hcarried.kept, hcarried.absent, hcarried.written⟩
  · rcases hissued other hother with hold | hnew
    · exact traced.fills other hold
    · intro _ hcreate
      rw [hfollows.table other hnew]
      have hother : ∀ table, other ≠ .create table := by
        rintro table rfl
        exact hcreate rfl
      rcases hfollows.filling other hnew hother with
        ⟨haccepted, hcreated⟩ | ⟨index, hindex⟩
      · rw [hcreated] at haccepted
        exact (traced.tables _ hknown).new haccepted
      · refine traced.fills statement hmem ?_ ?_
        · rw [hindex]
          exact fun h => by cases h
        · rw [hindex]
          exact fun h => by cases h

theorem Traced.complete_iff {vars : Initialisation Entry}
    {table : TableDeclaration Entry} (traced : Traced start vars table)
    (initially : (start table.name).isSome = true → Complete start table) :
    vars.database table.name = none ∨ Complete vars.database table ↔
      (.create table ∈ vars.executed → Finished vars.executed table) := by
  cases hstart : start table.name with
  | some stored =>
      have hold : (start table.name).isSome = true := by
        rw [hstart]
        rfl
      obtain ⟨hsame, hcreate⟩ := traced.kept hold
      refine iff_of_true (.inr ?_) fun h => absurd h hcreate
      simpa only [Complete, hsame] using initially hold
  | none =>
      cases hnow : vars.database table.name with
      | none =>
          refine iff_of_true (.inl rfl) fun hcreate => ?_
          have hexists := traced.absent hnow _ hcreate rfl
          cases hexists
      | some stored =>
          obtain ⟨hcreate, hindexes, hrows⟩ :=
            traced.written hstart stored hnow
          simp [Complete, Finished, hnow, hcreate, hindexes, hrows]

/-- A later run completes every declared table exactly if the one that stopped
had finished those that it had created. -/
theorem restart_completes_iff {stopped final : CreateTables Entry}
    (initially : ∀ table ∈ declarations.tables,
      (start table.name).isSome = true → Complete start table)
    (first : Reachable (CreateTables.step engine) (fun _ _ => True)
      (createTables declarations start) stopped)
    (later : Reachable (CreateTables.step engine) Succeeds
      (createTables declarations stopped.vars.database) final)
    (finished : final.pending = []) :
    (∀ table ∈ declarations.tables, Complete final.vars.database table) ↔
      ∀ table ∈ declarations.tables, .create table ∈ stopped.vars.executed →
        Finished stopped.vars.executed table := by
  have htraced : TracedRun declarations start stopped :=
    first.invariant (TracedRun declarations start) traced_createTables
      fun _ _ _ traced _ stepped => traced.step stepped
  refine forall₂_congr fun table htable => ?_
  rw [← (htraced.tables table htable).complete_iff (initially table htable)]
  rcases succeeded_leaves later finished htable with
    ⟨hold, hsame⟩ | ⟨hnew, hcomplete⟩
  · have hexists : stopped.vars.database table.name ≠ none := by
      rintro hnone
      rw [hnone] at hold
      cases hold
    simp [Complete, hsame, hexists]
  · exact iff_of_true hcomplete (.inl hnew)

end Runs

/-! The tables of `IdentityServerDb`. -/

def pepperRows : List KeyRow := [⟨"pepper", ""⟩, ⟨"previousPepper", ""⟩]

def keysTable : TableDeclaration KeyRow where
  name := "keys"
  entries := pepperRows

def keysOnly : Declarations KeyRow where
  tables := [keysTable]
  distinct := by decide

def success : StatementOutcome := ⟨true, true⟩

def permitsSucceeding (loop : CreateTables KeyRow)
    (event : Nat × StatementOutcome) : Bool :=
  event.2.ok && (loop.pending[event.1]?).all
    (·.accepted loop.vars.database)

theorem permitsSucceeding_sound (loop : CreateTables KeyRow)
    (event : Nat × StatementOutcome)
    (h : permitsSucceeding loop event = true) : Succeeds loop event := by
  obtain ⟨hok, haccepted⟩ := Bool.and_eq_true_iff.mp h
  refine ⟨hok, fun statement hstatement => ?_⟩
  rw [Option.mem_def.mp hstatement] at haccepted
  exact haccepted

def attemptsTable : TableDeclaration KeyRow where
  name := "attempts"
  indexes := ["expires"]

def keysAndAttempts : Declarations KeyRow where
  tables := [keysTable, attemptsTable]
  distinct := by decide

def keysFirst : List (Nat × StatementOutcome) :=
  [(0, success), (1, success), (1, success), (1, success)]

/-- The first run stops when `keys` has its rows and nothing has been asked for
`attempts`. -/
theorem restart_completes_keys :
    ∃ stopped final,
      runEvents (CreateTables.step .pg) (fun _ _ => true) keysFirst
        (createTables keysAndAttempts fun _ => none) = some stopped ∧
      stopped.pending = [.exists attemptsTable] ∧
      runEvents (CreateTables.step .pg) permitsSucceeding
        [(0, success), (0, success), (0, success), (0, success)]
        (createTables keysAndAttempts stopped.vars.database) = some final ∧
      ∀ table ∈ keysAndAttempts.tables, Complete final.vars.database table := by
  have hrun : ∃ stopped final,
      runEvents (CreateTables.step .pg) (fun _ _ => true) keysFirst
        (createTables keysAndAttempts fun _ => none) = some stopped ∧
      stopped.pending = [.exists attemptsTable] ∧
      stopped.vars.executed = [.exists keysTable, .create keysTable,
        .insert keysTable ⟨"pepper", ""⟩,
        .insert keysTable ⟨"previousPepper", ""⟩] ∧
      runEvents (CreateTables.step .pg) permitsSucceeding
        [(0, success), (0, success), (0, success), (0, success)]
        (createTables keysAndAttempts stopped.vars.database) = some final ∧
      final.pending = [] := ⟨_, _, rfl, rfl, rfl, rfl, rfl⟩
  obtain ⟨stopped, final, hstopped, hpending, hexecuted, hfinal, hfinished⟩ :=
    hrun
  have hinitially : ∀ table ∈ keysAndAttempts.tables,
      ((fun _ => none : StoredTables KeyRow) table.name).isSome = true →
      Complete (fun _ => none) table := fun _ _ h => by cases h
  refine ⟨stopped, final, hstopped, hpending, hfinal,
    (restart_completes_iff hinitially
      (reachable_of_runEvents (fun _ _ _ => trivial) hstopped)
      (reachable_of_runEvents permitsSucceeding_sound hfinal) hfinished).mpr ?_⟩
  rw [hexecuted]
  unfold Finished
  decide
/-- The first run stops when it has created `keys`. -/
theorem keys_stays_empty :
    ¬ ∀ (engine : SupportedDatabases) (declarations : Declarations KeyRow)
      (start : StoredTables KeyRow) (stopped final : CreateTables KeyRow),
      (∀ table ∈ declarations.tables, (start table.name).isSome = true →
        Complete start table) →
      Reachable (CreateTables.step engine) (fun _ _ => True)
        (createTables declarations start) stopped →
      Reachable (CreateTables.step engine) Succeeds
        (createTables declarations stopped.vars.database) final →
      final.pending = [] →
      ∀ table ∈ declarations.tables, Complete final.vars.database table := by
  intro h
  have hfirst : ∃ stopped, runEvents (CreateTables.step .pg) (fun _ _ => true)
      [(0, success), (0, success)] (createTables keysOnly fun _ => none) =
        some stopped ∧ ∃ final, runEvents (CreateTables.step .pg)
          permitsSucceeding [(0, success)]
          (createTables keysOnly stopped.vars.database) = some final ∧
        final.pending = [] ∧ final.vars.database "keys" = some {} :=
    ⟨_, rfl, _, rfl, rfl, rfl⟩
  obtain ⟨stopped, hstopped, final, hfinal, hfinished, hkeys⟩ := hfirst
  obtain ⟨stored, hstored, _, hrows⟩ := h .pg keysOnly (fun _ => none) stopped
    final (fun _ _ h => by cases h)
    (reachable_of_runEvents (fun _ _ _ => trivial) hstopped)
    (reachable_of_runEvents permitsSucceeding_sound hfinal) hfinished keysTable
    List.mem_cons_self
  have hempty : stored = {} :=
    Option.some.inj (hstored.symm.trans hkeys)
  have hcount := hrows ⟨"pepper", ""⟩ List.mem_cons_self
  rw [hempty] at hcount
  exact absurd hcount (by decide)

end TwakeKickstart.IdentityServer
