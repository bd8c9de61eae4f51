import Mathlib.Data.List.Nodup
import TwakeKickstart.TomServer.Addressbook.Service

namespace TwakeKickstart.TomServer.Addressbook

open Library Utils
open IdentityServer (Driver Filter getStatement refusesDelete)

/-! At most one address book for an owner, and no contact without its book:
which operations may run side by side for that. -/

structure OneBookPerOwner (store : Store) : Prop where
  owners : (store.addressbooks.map AddressBook.owner).Nodup
  contacts : ∀ row ∈ store.contacts,
    ∃ book ∈ store.addressbooks, book.id = row.addressbookId

structure Consistent (store : Store) : Prop extends OneBookPerOwner store where
  ids : (store.addressbooks.map AddressBook.id).Nodup

def HasBook (store : Store) (owner : String) : Prop :=
  ∃ book ∈ store.addressbooks, book.owner = owner

namespace Call

/-- The owners whose address books the operation looks for.  A filter without
a value selects every row. -/
def Concerns : Call → String → Prop
  | list owner _, other => owner = other
  | addContacts owner _, other => owner = other
  | delete owner, other => owner = other ∨ owner = ""
  | _, _ => False

/-- The operation creates the address book when there is none. -/
def Opens : Call → Prop
  | list _ _ => True
  | addContacts _ _ => True
  | _ => False

end Call

/-- What the steps of an operation leave alone. -/
structure StepOf (call : Call) (before after : Store) : Prop where
  others : ∀ book, ¬ call.Concerns book.owner →
    (book ∈ after.addressbooks ↔ book ∈ before.addressbooks)
  kept : call.Opens → ∀ book ∈ before.addressbooks, book ∈ after.addressbooks
  created : call.Opens → ∀ book ∈ after.addressbooks,
    book ∈ before.addressbooks ∨ ¬ HasBook before book.owner
  contacts : ∀ row ∈ after.contacts,
    (∃ old ∈ before.contacts, old.addressbookId = row.addressbookId) ∨
    ∃ book ∈ before.addressbooks, book.id = row.addressbookId ∧
      call.Concerns book.owner

/-- What an operation relies on while it waits. -/
structure Relies (call : Call) (before after : Store) : Prop where
  books : ∀ book, call.Concerns book.owner →
    (book ∈ after.addressbooks ↔ book ∈ before.addressbooks)
  emptied : ¬ call.Opens → ∀ book ∈ before.addressbooks,
    call.Concerns book.owner →
    (∀ row ∈ before.contacts, row.addressbookId ≠ book.id) →
    ∀ row ∈ after.contacts, row.addressbookId ≠ book.id

/-- Operations on one owner may overlap when both open an address book that is
there already. -/
def Compatible (store : Store) (call other : Call) : Prop :=
  ∀ owner, call.Concerns owner → other.Concerns owner →
    call.Opens ∧ other.Opens ∧ HasBook store owner

theorem book_unique {store : Store} (consistent : Consistent store)
    {book other : AddressBook} (hbook : book ∈ store.addressbooks)
    (hother : other ∈ store.addressbooks) (h : book.id = other.id) :
    book = other :=
  List.inj_on_of_nodup_map consistent.ids hbook hother h

theorem StepOf.same (call : Call) (store : Store) : StepOf call store store :=
  ⟨fun _ _ => Iff.rfl, fun _ _ h => h, fun _ _ h => .inl h,
    fun row h => .inl ⟨row, h, rfl⟩⟩

theorem Relies.same (call : Call) (store : Store) : Relies call store store :=
  ⟨fun _ _ => Iff.rfl, fun _ _ _ _ h => h⟩

theorem Relies.trans {call : Call} {first second third : Store}
    (h : Relies call first second) (h' : Relies call second third) :
    Relies call first third := by
  refine ⟨?_, ?_⟩
  · intro book hconcerns
    exact (h'.books book hconcerns).trans (h.books book hconcerns)
  · intro hopens book hbook hconcerns hempty
    exact h'.emptied hopens book ((h.books book hconcerns).mpr hbook)
      hconcerns (h.emptied hopens book hbook hconcerns hempty)

/-- A step of an operation is one that every compatible operation relies
on. -/
theorem relies_of_step {call other : Call} {before after : Store}
    (consistent : Consistent before) (step : StepOf call before after)
    (compatible : Compatible before call other) :
    Relies other before after := by
  refine ⟨?_, ?_⟩
  · intro book hother
    by_cases hcall : call.Concerns book.owner
    · obtain ⟨hopens, _, hhas⟩ := compatible book.owner hcall hother
      constructor
      · intro hafter
        rcases step.created hopens book hafter with hbefore | hnone
        · exact hbefore
        · exact absurd hhas hnone
      · exact step.kept hopens book
    · exact step.others book hcall
  · intro hopens book hbook hother hempty row hrow hsame
    rcases step.contacts row hrow with ⟨old, hold, hid⟩ |
      ⟨owned, howned, hid, hcall⟩
    · exact hempty old hold (hid.trans hsame)
    · rw [book_unique consistent howned hbook (hid.trans hsame)] at hcall
      exact hopens (compatible book.owner hcall hother).2.1

theorem compatible_of_step {call other actor : Call} {before after : Store}
    (compatible : Compatible before call other)
    (step : StepOf actor before after)
    (known : actor = call ∨ Compatible before actor call) :
    Compatible after call other := by
  intro owner hcall hother
  obtain ⟨hopens, hopensOther, book, hbook, howner⟩ :=
    compatible owner hcall hother
  refine ⟨hopens, hopensOther, book, ?_, howner⟩
  subst howner
  by_cases hactor : actor.Concerns book.owner
  · have hactorOpens : actor.Opens := by
      rcases known with rfl | hknown
      · exact hopens
      · exact (hknown book.owner hactor hcall).1
    exact step.kept hactorOpens book hbook
  · exact (step.others book hactor).mpr hbook

/-- A look-up does not fail for an owner who has an address book. -/
def LooksUp (call : Call) : Effect → Choice → Store → Prop
  | .db (.getAddressbooks _ _), choice, store =>
      call.Opens → ∀ owner, call.Concerns owner → HasBook store owner →
        choice.failure.isNone
  | _, _, _ => True

def bookIsolation : Isolation Effect World Call Choice where
  inv world := Consistent world.store
  rely call before after := Relies call before.store after.store
  guarantee call before after := StepOf call before.store after.store
  permits call effect choice world := LooksUp call effect choice world.store
  compatible world call other := Compatible world.store call other
  refl call world := .same call world.store
  trans := Relies.trans
  symm h owner hother hcall :=
    let ⟨hopens, hopensOther, hhas⟩ := h owner hcall hother
    ⟨hopensOther, hopens, hhas⟩
  respects := relies_of_step
  stays _ := compatible_of_step

/-! Each operation keeps to this. -/

section Operations

variable {engine : Engine} {call : Call} {world : World}

/-- The operation is safe from here on. -/
abbrev SafeFrom (engine : Engine) (call : Call) (procedure : Procedure)
    (world : World) : Prop :=
  bookIsolation.Safe (handle engine) call procedure world

theorem safe_quiet {effect : Effect} {next : effect.Result → Procedure}
    (quiet : ∀ choice world,
      (handle engine choice effect world).2.store = world.store)
    (safe : ∀ result world', Relies call world.store world'.store →
      SafeFrom engine call (next result) world') :
    SafeFrom engine call (.perform effect next) world := by
  intro world' hrelies hinv choice _
  have hstore := quiet choice world'
  refine ⟨?_, ?_, safe _ _ ?_⟩
  · change Consistent (handle engine choice effect world').2.store
    rw [hstore]
    exact hinv
  · change StepOf call world'.store (handle engine choice effect world').2.store
    rw [hstore]
    exact .same call _
  · rw [hstore]
    exact hrelies

theorem quiet_get (engine : Engine) (fields : List String) (filter : Filter)
    (choice : Choice) (world : World) :
    (handle engine choice (.db (.getContacts fields filter)) world).2.store =
      world.store := by
  unfold handle
  cases choice.failure with
  | none => rfl
  | some error => rfl

theorem quiet_getAddressbooks (engine : Engine) (fields : List String)
    (filter : Filter) (choice : Choice) (world : World) :
    (handle engine choice (.db (.getAddressbooks fields filter))
      world).2.store = world.store := by
  unfold handle
  cases choice.failure with
  | none => rfl
  | some error => rfl

theorem safe_answer (result : Answer) :
    SafeFrom engine call (answer result) world := by
  apply safe_quiet fun _ _ => rfl
  intro _ _ _
  trivial

theorem getAddressbooks_owner (engine : Engine) (fields : List String)
    (owner : String) (store : Store) :
    ∃ rows, (execute engine
        (.getAddressbooks fields [("owner", .str owner)]) store).1 =
        .ok rows ∧
      ∀ book, book ∈ rows ↔
        book ∈ store.addressbooks ∧ (owner = "" ∨ book.owner = owner) := by
  rcases IdentityServer.getStatement_spec fields [("owner", .str owner)] with
    ⟨hresolve, _⟩ | ⟨resolved, statement, hresolve, hstatement, hselects⟩
  · rw [IdentityServer.resolve_cons_str] at hresolve
    split at hresolve
    · cases hresolve
    · cases hresolve
  · refine ⟨store.addressbooks.filter fun row => statement.selects row.cell,
      by simp [execute, hstatement], ?_⟩
    intro book
    rw [List.mem_filter, hselects]
    rw [IdentityServer.resolve_cons_str] at hresolve
    split at hresolve
    · rename_i hempty
      cases hresolve
      simp [IdentityServer.selectsAll, hempty]
    · rename_i hnonempty
      cases hresolve
      simp [IdentityServer.selectsAll, AddressBook.cell, hnonempty]

/-- After the look-up of a book that the operation may open, the book is known,
or there is none. -/
theorem safe_getUserAddressBook {owner : String}
    {next : Option AddressBook → Procedure} (named : owner ≠ "")
    (opens : call.Opens) (concerns : call.Concerns owner)
    (found : ∀ book world', book ∈ world'.store.addressbooks →
      book.owner = owner → SafeFrom engine call (next (some book)) world')
    (missing : ∀ world', ¬ HasBook world'.store owner →
      SafeFrom engine call (next none) world') :
    SafeFrom engine call (getUserAddressBook owner next) world := by
  intro world' _ hinv choice hpermits
  have hpermits := hpermits opens owner concerns
  have hstore := quiet_getAddressbooks engine ["*"] [("owner", .str owner)]
    choice world'
  refine ⟨?_, ?_, ?_⟩
  · change Consistent (handle engine choice _ world').2.store
    rw [hstore]
    exact hinv
  · change StepOf call world'.store (handle engine choice _ world').2.store
    rw [hstore]
    exact .same call _
  · cases hfailure : choice.failure with
    | some error =>
        rw [hfailure] at hpermits
        simp only [handle, hfailure]
        apply missing
        intro hhas
        cases hpermits hhas
    | none =>
        obtain ⟨rows, hrows, hmem⟩ :=
          getAddressbooks_owner engine ["*"] owner world'.store
        simp only [handle, hfailure]
        rw [hrows]
        cases rows with
        | nil =>
            apply missing
            rintro ⟨book, hbook, howner⟩
            exact absurd ((hmem book).mpr ⟨hbook, .inr howner⟩) (by simp)
        | cons book rest =>
            obtain ⟨hbook, howner⟩ := (hmem book).mp List.mem_cons_self
            exact found book _ hbook (howner.resolve_left named)

theorem noBook_of_relies {owner : String} {before after : Store}
    (relies : Relies call before after) (concerns : call.Concerns owner)
    (none : ¬ HasBook before owner) : ¬ HasBook after owner := by
  rintro ⟨book, hbook, rfl⟩
  exact none ⟨book, (relies.books book concerns).mp hbook, rfl⟩

theorem execute_insertAddressbook (engine : Engine) (row : AddressBook)
    (store : Store) :
    execute engine (.insertAddressbook row) store =
      (.error engine.keyTaken, store) ∨
    row.id ∉ store.addressbooks.map AddressBook.id ∧
    execute engine (.insertAddressbook row) store =
      (.ok [row],
        { store with addressbooks := store.addressbooks ++ [row] }) := by
  simp only [execute]
  split
  · exact .inl rfl
  · rename_i hfresh
    refine .inr ⟨?_, rfl⟩
    intro hmem
    obtain ⟨other, hother, hid⟩ := List.mem_map.mp hmem
    exact hfresh (List.any_eq_true.mpr ⟨other, hother, by simp [hid]⟩)

theorem consistent_create {store : Store} {row : AddressBook}
    (consistent : Consistent store)
    (fresh : row.id ∉ store.addressbooks.map AddressBook.id)
    (none : ¬ HasBook store row.owner) :
    Consistent { store with addressbooks := store.addressbooks ++ [row] } := by
  have hsnoc : ∀ {field : AddressBook → String},
      (store.addressbooks.map field).Nodup →
      field row ∉ store.addressbooks.map field →
      ((store.addressbooks ++ [row]).map field).Nodup := by
    intro field hnodup hnew
    rw [List.map_append, List.map_singleton, List.nodup_append]
    refine ⟨hnodup, List.nodup_singleton _, ?_⟩
    intro name hname other hother hsame
    rw [List.mem_singleton.mp hother] at hsame
    exact hnew (hsame ▸ hname)
  refine ⟨⟨hsnoc consistent.owners ?_, ?_⟩, hsnoc consistent.ids fresh⟩
  · intro hmem
    obtain ⟨book, hbook, howner⟩ := List.mem_map.mp hmem
    exact none ⟨book, hbook, howner⟩
  · intro contact hcontact
    obtain ⟨book, hbook, hid⟩ := consistent.contacts contact hcontact
    exact ⟨book, List.mem_append_left _ hbook, hid⟩

theorem stepOf_create {store : Store} {row : AddressBook}
    (concerns : call.Concerns row.owner) (none : ¬ HasBook store row.owner) :
    StepOf call store
      { store with addressbooks := store.addressbooks ++ [row] } := by
  refine ⟨?_, ?_, ?_, ?_⟩
  · intro book hother
    rw [List.mem_append, List.mem_singleton]
    constructor
    · rintro (hold | rfl)
      · exact hold
      · exact absurd concerns hother
    · exact .inl
  · exact fun _ book hbook => List.mem_append_left _ hbook
  · intro _ book hbook
    rcases List.mem_append.mp hbook with hold | hnew
    · exact .inl hold
    · rw [List.mem_singleton.mp hnew]
      exact .inr none
  · exact fun contact hcontact => .inl ⟨contact, hcontact, rfl⟩

theorem safe_createUserAddressBook {owner : String}
    {next : Except DbError AddressBook → Procedure}
    (concerns : call.Concerns owner) (none : ¬ HasBook world.store owner)
    (created : ∀ book world', book ∈ world'.store.addressbooks →
      book.owner = owner → SafeFrom engine call (next (.ok book)) world')
    (failed : ∀ error world', ¬ HasBook world'.store owner →
      SafeFrom engine call (next (.error error)) world') :
    SafeFrom engine call (createUserAddressBook owner next) world := by
  apply safe_quiet fun _ _ => rfl
  intro id world' hrelies
  have hnone := noBook_of_relies hrelies concerns none
  intro world'' hrelies' hinv choice _
  have hnone' := noBook_of_relies hrelies' concerns hnone
  cases hfailure : choice.failure with
  | some error =>
      simp only [handle, hfailure]
      exact ⟨hinv, .same call _, failed error _ hnone'⟩
  | none =>
      simp only [handle, hfailure]
      rcases execute_insertAddressbook engine ⟨id, owner⟩ world''.store with
        htaken | ⟨hfresh, hinsert⟩
      · rw [htaken]
        exact ⟨hinv, .same call _, failed _ _ hnone'⟩
      · rw [hinsert]
        exact ⟨consistent_create hinv hfresh hnone',
          stepOf_create concerns hnone', created _ _ (by simp) rfl⟩

theorem safe_createWithRetries {owner : String}
    {next : Option AddressBook → Procedure} (named : owner ≠ "")
    (opens : call.Opens) (concerns : call.Concerns owner)
    (found : ∀ book world', book ∈ world'.store.addressbooks →
      book.owner = owner → SafeFrom engine call (next (some book)) world')
    (threw : ∀ world', SafeFrom engine call (next none) world')
    (left : Nat) (world : World) (none : ¬ HasBook world.store owner) :
    SafeFrom engine call (createWithRetries owner next left) world := by
  induction left generalizing world with
  | zero => exact threw world
  | succ left ih =>
      apply safe_createUserAddressBook concerns none found
      intro error world hnone
      dsimp only
      split
      · refine safe_getUserAddressBook named opens concerns found ?_
        intro world hnone
        dsimp only
        split
        · exact threw world
        · apply safe_quiet fun _ _ => rfl
          intro _ world hrelies
          exact ih world (noBook_of_relies hrelies concerns hnone)
      · exact threw world

theorem safe_getOrCreateUserAddressBook {owner : String}
    {next : Option AddressBook → Procedure} (opens : call.Opens)
    (concerns : call.Concerns owner)
    (found : ∀ book world', book ∈ world'.store.addressbooks →
      book.owner = owner → SafeFrom engine call (next (some book)) world')
    (threw : ∀ world', SafeFrom engine call (next none) world') :
    SafeFrom engine call (getOrCreateUserAddressBook owner next) world := by
  unfold getOrCreateUserAddressBook
  split
  · exact threw world
  · rename_i named
    refine safe_getUserAddressBook named opens concerns found ?_
    exact safe_createWithRetries named opens concerns found threw maxRetries

theorem safe_list (service : Service) (owner : String)
    (includeUserDbContacts : Bool) (world : World) :
    SafeFrom engine (.list owner includeUserDbContacts)
      (list service owner includeUserDbContacts) world := by
  refine safe_getOrCreateUserAddressBook trivial rfl ?_ ?_
  · intro book world _ _
    apply safe_quiet (quiet_get engine _ _)
    intro rows world _
    unfold getUserDbContacts
    split
    · apply safe_quiet fun _ _ => rfl
      intro users world _
      exact safe_answer _
    · exact safe_answer _
  · intro world
    exact safe_answer _

theorem execute_insertContact (engine : Engine)
    (contact : ContactCreationPayload) (id addressbookId : String)
    (store : Store) :
    execute engine (.insertContact contact id addressbookId) store =
      (.error engine.keyTaken, store) ∨
    ∃ row, row.addressbookId = addressbookId ∧
      execute engine (.insertContact contact id addressbookId) store =
        (.ok [row], { store with contacts := store.contacts ++ [row] }) := by
  simp only [execute]
  split
  · exact .inl rfl
  · exact .inr ⟨_, rfl, rfl⟩

theorem consistent_addContact {store : Store} {row : ContactRow}
    {book : AddressBook} (consistent : Consistent store)
    (hbook : book ∈ store.addressbooks) (hid : book.id = row.addressbookId) :
    Consistent { store with contacts := store.contacts ++ [row] } := by
  refine ⟨⟨consistent.owners, ?_⟩, consistent.ids⟩
  intro contact hcontact
  rcases List.mem_append.mp hcontact with hold | hnew
  · exact consistent.contacts contact hold
  · rw [List.mem_singleton.mp hnew]
    exact ⟨book, hbook, hid⟩

theorem stepOf_addContact {store : Store} {row : ContactRow}
    {book : AddressBook} (hbook : book ∈ store.addressbooks)
    (hid : book.id = row.addressbookId) (concerns : call.Concerns book.owner) :
    StepOf call store { store with contacts := store.contacts ++ [row] } := by
  refine ⟨fun _ _ => Iff.rfl, fun _ _ h => h, fun _ _ h => .inl h, ?_⟩
  intro contact hcontact
  rcases List.mem_append.mp hcontact with hold | hnew
  · exact .inl ⟨contact, hold, rfl⟩
  · rw [List.mem_singleton.mp hnew]
    exact .inr ⟨book, hbook, hid, concerns⟩

theorem safe_addContact {contact : ContactCreationPayload}
    {book : AddressBook} {next : Option Contact → Procedure}
    (concerns : call.Concerns book.owner)
    (hbook : book ∈ world.store.addressbooks)
    (safe : ∀ created world', book ∈ world'.store.addressbooks →
      SafeFrom engine call (next created) world') :
    SafeFrom engine call (addContact contact book.id next) world := by
  apply safe_quiet (quiet_get engine _ _)
  intro rows world hrelies
  have hbook := (hrelies.books book concerns).mpr hbook
  split
  · exact safe none world hbook
  · apply safe_quiet fun _ _ => rfl
    intro id world hrelies
    have hbook := (hrelies.books book concerns).mpr hbook
    intro world hrelies hinv choice _
    have hbook := (hrelies.books book concerns).mpr hbook
    cases hfailure : choice.failure with
    | some error =>
        simp only [handle, hfailure]
        exact ⟨hinv, .same call _, safe none _ hbook⟩
    | none =>
        simp only [handle, hfailure]
        rcases execute_insertContact engine contact id book.id world.store with
          htaken | ⟨row, hid, hinsert⟩
        · rw [htaken]
          exact ⟨hinv, .same call _, safe none _ hbook⟩
        · rw [hinsert]
          exact ⟨consistent_addContact hinv hbook hid.symm,
            stepOf_addContact hbook hid.symm concerns, safe _ _ hbook⟩

theorem safe_addEach {book : AddressBook}
    {next : List Contact → Procedure} (concerns : call.Concerns book.owner)
    (safe : ∀ created world', SafeFrom engine call (next created) world')
    (contacts : List ContactCreationPayload) (createdContacts : List Contact)
    (world : World) (hbook : book ∈ world.store.addressbooks) :
    SafeFrom engine call (addEach book.id next contacts createdContacts)
      world := by
  induction contacts generalizing createdContacts world with
  | nil => exact safe createdContacts world
  | cons contact rest ih =>
      apply safe_addContact concerns hbook
      intro created world hbook
      exact ih _ world hbook

theorem safe_addContacts (owner : String)
    (contacts : Option (List ContactCreationPayload)) (world : World) :
    SafeFrom engine (.addContacts owner contacts)
      (addContacts owner contacts) world := by
  refine safe_getOrCreateUserAddressBook trivial rfl ?_ ?_
  · intro book world hbook howner
    have hconcerns : (Call.addContacts owner contacts).Concerns book.owner :=
      howner.symm
    exact safe_addEach hconcerns (fun _ _ => safe_answer _) _ _ world hbook
  · intro world
    exact safe_answer _

theorem safe_getContact (contactId : String) (world : World) :
    SafeFrom engine (.getContact contactId) (getContact contactId) world := by
  apply safe_quiet (quiet_get engine _ _)
  intro rows world _
  split
  · exact safe_answer _
  · exact safe_answer _

theorem frame_contacts {before after : Store} (consistent : Consistent before)
    (books : after.addressbooks = before.addressbooks)
    (contacts : ∀ row ∈ after.contacts,
      ∃ old ∈ before.contacts, old.addressbookId = row.addressbookId) :
    Consistent after ∧ StepOf call before after := by
  refine ⟨⟨⟨?_, ?_⟩, ?_⟩, ?_, ?_, ?_, ?_⟩
  · rw [books]
    exact consistent.owners
  · intro row hrow
    obtain ⟨old, hold, hsame⟩ := contacts row hrow
    rw [books, ← hsame]
    exact consistent.contacts old hold
  · rw [books]
    exact consistent.ids
  · intro book _
    rw [books]
  · intro _ book hbook
    rw [books]
    exact hbook
  · intro _ book hbook
    rw [books] at hbook
    exact .inl hbook
  · exact fun row hrow => .inl (contacts row hrow)

theorem frame_updateContacts (values : ContactUpdatePayload)
    (field value : String) (choice : Choice) (world : World)
    (consistent : Consistent world.store) :
    Consistent (handle engine choice (.db (.updateContacts values field value))
      world).2.store ∧
    StepOf call world.store (handle engine choice
      (.db (.updateContacts values field value)) world).2.store := by
  cases hfailure : choice.failure with
  | some error =>
      simp only [handle, hfailure]
      exact ⟨consistent, .same call _⟩
  | none =>
      simp only [handle, hfailure]
      refine frame_contacts consistent rfl ?_
      intro row hrow
      obtain ⟨old, hold, rfl⟩ := List.mem_map.mp hrow
      refine ⟨old, hold, ?_⟩
      split
      · rfl
      · rfl

theorem safe_updateContact (id : String) (contact : ContactUpdatePayload)
    (world : World) :
    SafeFrom engine (.updateContact id contact) (updateContact id contact)
      world := by
  intro world _ hinv choice _
  refine and_assoc.mp
    ⟨frame_updateContacts contact "id" id choice world hinv, ?_⟩
  dsimp only
  split
  · exact safe_answer _
  · exact safe_answer _

theorem execute_deleteContacts (engine : Engine) (field value : String)
    (store : Store) :
    execute engine (.deleteContacts field value) store =
      (.error engine.deleteRefused, store) ∨
    execute engine (.deleteContacts field value) store =
      (.ok (), { store with
        contacts := store.contacts.filter fun row =>
          !(row.cell field).same (.text value) }) := by
  simp only [execute]
  split
  · exact .inl rfl
  · exact .inr rfl

theorem safe_deleteContacts {field value : String}
    {next : Except DbError Unit → Procedure}
    (failed : ∀ error world', SafeFrom engine call (next (.error error)) world')
    (deleted : ∀ world' : World, Relies call world.store world'.store →
      ∀ after : World, after.store = { world'.store with
        contacts := world'.store.contacts.filter fun row =>
          !(row.cell field).same (.text value) } →
      SafeFrom engine call (next (.ok ())) after) :
    SafeFrom engine call (.perform (.db (.deleteContacts field value)) next)
      world := by
  intro world' hrelies hinv choice _
  cases hfailure : choice.failure with
  | some error =>
      simp only [handle, hfailure]
      exact ⟨hinv, .same call _, failed _ _⟩
  | none =>
      simp only [handle, hfailure]
      rcases execute_deleteContacts engine field value world'.store with
        hrefused | hdeleted
      · rw [hrefused]
        exact ⟨hinv, .same call _, failed _ _⟩
      · rw [hdeleted]
        refine and_assoc.mp ⟨frame_contacts hinv rfl ?_,
          deleted world' hrelies _ rfl⟩
        exact fun row hrow => ⟨row, (List.mem_filter.mp hrow).1, rfl⟩

theorem safe_deleteContact (contactId : String) (world : World) :
    SafeFrom engine (.deleteContact contactId) (deleteContact contactId)
      world := by
  apply safe_deleteContacts
  · exact fun _ _ => safe_answer _
  · exact fun _ _ _ _ => safe_answer _

theorem frame_deleteAddressbook {store : Store} {book : AddressBook}
    (consistent : Consistent store) (hbook : book ∈ store.addressbooks)
    (concerns : call.Concerns book.owner) (closed : ¬ call.Opens)
    (empty : ∀ row ∈ store.contacts, row.addressbookId ≠ book.id) :
    Consistent { store with
      addressbooks := store.addressbooks.filter fun row =>
        !(row.cell "id").same (.text book.id) } ∧
    StepOf call store { store with
      addressbooks := store.addressbooks.filter fun row =>
        !(row.cell "id").same (.text book.id) } := by
  have hmem : ∀ other, other ∈ (store.addressbooks.filter fun row =>
      !(row.cell "id").same (.text book.id)) ↔
      other ∈ store.addressbooks ∧ other.id ≠ book.id := by
    intro other
    simp [AddressBook.cell, Cell.same]
  have hsublist := List.filter_sublist (l := store.addressbooks)
    (p := fun row => !(row.cell "id").same (.text book.id))
  refine ⟨⟨⟨(hsublist.map _).nodup consistent.owners, ?_⟩,
    (hsublist.map _).nodup consistent.ids⟩, ?_, ?_, ?_, ?_⟩
  · intro row hrow
    obtain ⟨other, hother, hid⟩ := consistent.contacts row hrow
    refine ⟨other, (hmem other).mpr ⟨hother, ?_⟩, hid⟩
    rw [hid]
    exact empty row hrow
  · intro other hother
    rw [hmem]
    constructor
    · exact And.left
    · intro hstored
      refine ⟨hstored, ?_⟩
      intro hid
      rw [book_unique consistent hstored hbook hid] at hother
      exact hother concerns
  · exact fun hopens => absurd hopens closed
  · exact fun hopens => absurd hopens closed
  · exact fun row hrow => .inl ⟨row, hrow, rfl⟩

theorem execute_deleteAddressbooks (engine : Engine) (field value : String)
    (store : Store) :
    execute engine (.deleteAddressbooks field value) store =
      (.error engine.deleteRefused, store) ∨
    execute engine (.deleteAddressbooks field value) store =
      (.ok (), { store with
        addressbooks := store.addressbooks.filter fun row =>
          !(row.cell field).same (.text value) }) := by
  simp only [execute]
  split
  · exact .inl rfl
  · exact .inr rfl

theorem safe_deleteAddressbook {book : AddressBook}
    {next : Except DbError Unit → Procedure}
    (hbook : book ∈ world.store.addressbooks)
    (concerns : call.Concerns book.owner) (closed : ¬ call.Opens)
    (empty : ∀ row ∈ world.store.contacts, row.addressbookId ≠ book.id)
    (safe : ∀ result world', SafeFrom engine call (next result) world') :
    SafeFrom engine call
      (.perform (.db (.deleteAddressbooks "id" book.id)) next) world := by
  intro world' hrelies hinv choice _
  have hbook' := (hrelies.books book concerns).mpr hbook
  have hempty := hrelies.emptied closed book hbook concerns empty
  cases hfailure : choice.failure with
  | some error =>
      simp only [handle, hfailure]
      exact ⟨hinv, .same call _, safe _ _⟩
  | none =>
      simp only [handle, hfailure]
      rcases execute_deleteAddressbooks engine "id" book.id world'.store with
        hrefused | hdeleted
      · rw [hrefused]
        exact ⟨hinv, .same call _, safe _ _⟩
      · rw [hdeleted]
        exact and_assoc.mp ⟨frame_deleteAddressbook hinv hbook' concerns
          closed hempty, safe _ _⟩

theorem safe_delete (owner : String) (world : World) :
    SafeFrom engine (.delete owner) (delete owner) world := by
  have hclosed : ¬ (Call.delete owner).Opens := fun h => h
  intro world hrelies hinv choice _
  have hstore := quiet_getAddressbooks engine ["id"] [("owner", .str owner)]
    choice world
  refine ⟨?_, ?_, ?_⟩
  · change Consistent (handle engine choice _ world).2.store
    rw [hstore]
    exact hinv
  · change StepOf _ world.store (handle engine choice _ world).2.store
    rw [hstore]
    exact .same _ _
  · cases hfailure : choice.failure with
    | some error =>
        simp only [handle, hfailure]
        exact safe_answer _
    | none =>
        obtain ⟨rows, hrows, hmem⟩ :=
          getAddressbooks_owner engine ["id"] owner world.store
        simp only [handle, hfailure]
        rw [hrows]
        cases rows with
        | nil => exact safe_answer _
        | cons book rest =>
            obtain ⟨hbook, howner⟩ := (hmem book).mp List.mem_cons_self
            have hconcerns : (Call.delete owner).Concerns book.owner :=
              howner.symm.imp_left Eq.symm
            apply safe_deleteContacts
            · exact fun _ _ => safe_answer _
            · intro world' hrelies after hafter
              have hempty : ∀ row ∈ after.store.contacts,
                  row.addressbookId ≠ book.id := by
                intro row hrow
                rw [hafter] at hrow
                have hkept := (List.mem_filter.mp hrow).2
                simpa [ContactRow.cell, Cell.same] using hkept
              have hbook' : book ∈ after.store.addressbooks := by
                rw [hafter]
                exact (hrelies.books book hconcerns).mpr hbook
              apply safe_deleteAddressbook hbook' hconcerns hclosed hempty
              intro result world
              cases result with
              | ok _ => exact safe_answer _
              | error error => exact safe_answer _

theorem safe_program (engine : Engine) (service : Service) (call : Call)
    (world : World) :
    SafeFrom engine call (call.program service) world := by
  cases call with
  | list owner includeUserDbContacts =>
      exact safe_list service owner includeUserDbContacts world
  | addContacts owner contacts => exact safe_addContacts owner contacts world
  | getContact contactId => exact safe_getContact contactId world
  | updateContact id contact => exact safe_updateContact id contact world
  | deleteContact contactId => exact safe_deleteContact contactId world
  | delete owner => exact safe_delete owner world

end Operations

/-- No operation starts beside another one on the same owner, unless both open
an address book that is there already; and a look-up by an operation that opens
address books does not fail for an owner who has one. -/
def Undisturbed (pool : ServicePool) : PoolEvent Call Choice → Prop
  | .start call => ∀ thread ∈ pool.threads, thread.2 ≠ .done →
      ∀ owner, call.Concerns owner → thread.1.Concerns owner →
        call.Opens ∧ thread.1.Opens ∧ HasBook pool.world.store owner
  | .act index choice => ∀ call fields filter next,
      pool.threads[index]? =
        some (call, .perform (.db (.getAddressbooks fields filter)) next) →
      call.Opens → ∀ owner, call.Concerns owner →
        HasBook pool.world.store owner → choice.failure.isNone

theorem allowed_of_undisturbed (pool : ServicePool)
    (event : PoolEvent Call Choice) (h : Undisturbed pool event) :
    bookIsolation.Allowed pool event := by
  cases event with
  | start call =>
      intro thread hthread hrunning
      refine h thread hthread ?_
      intro hdone
      rw [hdone] at hrunning
      exact hrunning
  | act index choice =>
      intro call effect next hthread
      cases effect with
      | db dbCall =>
          cases dbCall with
          | getAddressbooks fields filter =>
              exact h call fields filter next hthread
          | insertAddressbook row => trivial
          | deleteAddressbooks field value => trivial
          | getContacts fields filter => trivial
          | insertContact contact id addressbookId => trivial
          | updateContacts values field value => trivial
          | deleteContacts field value => trivial
      | uuid => trivial
      | wait milliseconds => trivial
      | getUsers => trivial
      | answer result => trivial

def emptyPool : ServicePool where
  world := { store := ⟨[], []⟩ }
  threads := []

/-- In every undisturbed run an owner has at most one address book, and every
contact refers to an address book that is there. -/
theorem oneBookPerOwner (engine : Engine) (service : Service)
    {pool : ServicePool}
    (reached : Reachable (serviceStep engine service) Undisturbed emptyPool
      pool) : OneBookPerOwner pool.world.store := by
  have hempty : Consistent emptyPool.world.store :=
    ⟨⟨List.nodup_nil, by simp [emptyPool]⟩, List.nodup_nil⟩
  have hholds : bookIsolation.Holds (handle engine) pool := by
    refine Isolation.Holds.of_reachable reached ⟨hempty, ?_, ?_⟩
      allowed_of_undisturbed fun call world _ =>
        safe_program engine service call world
    · intro thread hthread
      cases hthread
    · intro index position thread other _ hthread
      cases hthread
  exact hholds.inv.toOneBookPerOwner

/-! Runs that open an address book. -/

def sampleEngine : Engine where
  driver := { engine := .sqlite, encode := fun _ => "" }
  keyTaken := { message := "SQLITE_CONSTRAINT: UNIQUE constraint failed" }
  deleteRefused := { message := "" }

def sampleService : Service where
  enableAdditionalFeatures := false
  hasUserDb := false
  serverName := "example.org"
  localeCompare := fun a b => compare a b

def alice : String := "@alice:example.org"

def carol : String := "@carol:example.org"

/-- Lists for different owners, and no failure. -/
def apart (pool : ServicePool) : PoolEvent Call Choice → Bool
  | .start (.list owner _) => pool.threads.all fun thread =>
      match thread.1 with
      | .list other _ => owner != other
      | _ => false
  | .start _ => false
  | .act _ choice => choice.failure.isNone

theorem undisturbed_of_apart (pool : ServicePool)
    (event : PoolEvent Call Choice) (h : apart pool event = true) :
    Undisturbed pool event := by
  cases event with
  | start call =>
      cases call with
      | list owner includeUserDbContacts =>
          rintro ⟨call, program⟩ hthread _ shared hconcerns hothers
          have happart := List.all_eq_true.mp h _ hthread
          cases call with
          | list other includeUserDbContacts =>
              have hsame : owner = other := hconcerns.trans hothers.symm
              simp [hsame] at happart
          | _ => cases happart
      | _ => cases h
  | act index choice =>
      intro _ _ _ _ _ _ _ _ _
      exact h

/-- The lists of two new owners, side by side. -/
theorem oneBookPerOwner_list :
    ∃ pool, Reachable (serviceStep sampleEngine sampleService) Undisturbed
        emptyPool pool ∧
      pool.world.store.addressbooks = [⟨"b", carol⟩, ⟨"a", alice⟩] ∧
      OneBookPerOwner pool.world.store := by
  have hrun : ∃ pool, runEvents (serviceStep sampleEngine sampleService)
      apart [.start (.list alice true), .act 0 {}, .start (.list carol true),
        .act 1 {}, .act 1 { id := "b" }, .act 0 { id := "a" }, .act 1 {},
        .act 0 {}] emptyPool = some pool ∧
      pool.world.store.addressbooks = [⟨"b", carol⟩, ⟨"a", alice⟩] :=
    ⟨_, rfl, rfl⟩
  obtain ⟨pool, hrun, hbooks⟩ := hrun
  have hreached := reachable_of_runEvents undisturbed_of_apart hrun
  exact ⟨pool, hreached, hbooks,
    oneBookPerOwner sampleEngine sampleService hreached⟩

/-- Two requests for the list of a new owner open two address books. -/
theorem overlapping_lists_open_two :
    ∃ pool, Reachable (serviceStep sampleEngine sampleService)
        (fun _ _ => True) emptyPool pool ∧
      ¬ OneBookPerOwner pool.world.store := by
  have hrun : ∃ pool, runEvents (serviceStep sampleEngine sampleService)
      (fun _ _ => true) [.start (.list alice true), .start (.list alice true),
        .act 0 {}, .act 1 {}, .act 0 { id := "a" }, .act 0 {},
        .act 1 { id := "b" }, .act 1 {}] emptyPool = some pool ∧
      pool.world.store.addressbooks = [⟨"a", alice⟩, ⟨"b", alice⟩] :=
    ⟨_, rfl, rfl⟩
  obtain ⟨pool, hrun, hbooks⟩ := hrun
  refine ⟨pool, reachable_of_runEvents (fun _ _ _ => trivial) hrun, ?_⟩
  intro h
  have howners := h.owners
  rw [hbooks] at howners
  exact absurd howners (by decide)

end TwakeKickstart.TomServer.Addressbook
