import TwakeKickstart.Library.Async
import TwakeKickstart.TomServer.Addressbook.OneBook

namespace TwakeKickstart.TomServer.Addressbook

open Library Utils
open IdentityServer (Driver Filter getStatement refusesDelete)

/-! Operations that run alone with a healthy database: what each writes and
answers. -/

def occurs (id : String) (store : Store) : Bool :=
  store.addressbooks.any (·.id == id) ||
    store.contacts.any fun row => row.id == some id || row.addressbookId == id

/-- No database call fails, and an identifier that is drawn is a new one. -/
def healthy : Effect → Choice → World → Bool
  | .db _, choice, _ => choice.failure.isNone
  | .uuid, choice, world =>
      choice.id != "" && !occurs choice.id world.store
  | _, _, _ => true

def play (engine : Engine) (procedure : Procedure) (store : Store)
    (choices : List Choice) : Option (Store × List Answer) :=
  (procedure.play (handle engine) healthy ⟨store, []⟩ choices).map
    fun (world, _) => (world.store, world.answers)

/-- The contact is made of an entry of the user directory. -/
def Virtual (service : Service) (contact : Contact) : Prop :=
  ∃ entry, userDbContact service entry = some contact

/-! The contacts of the owner's address book. -/

def bookOf (owner : String) (store : Store) : Option AddressBook :=
  if owner = "" then none else store.addressbooks.find? (·.owner == owner)

/-- A filter without a value selects every row. -/
def inBook (bookId : String) (row : ContactRow) : Bool :=
  bookId == "" || row.addressbookId == bookId

/-- The rows that a list shows, but for those that are hidden as duplicates. -/
def validRows (bookId : String) (rows : List ContactRow) : List ContactRow :=
  rows.filter fun row => inBook bookId row && validateContactData row

def ownRows (owner : String) (store : Store) : List ContactRow :=
  (bookOf owner store).elim [] fun book => validRows book.id store.contacts

/-- `_checkIfContactExists`. -/
def contactExists (contact : ContactCreationPayload) (bookId : String)
    (rows : List ContactRow) : Bool :=
  (getStatement ["*"] [("mxid", contact.mxid),
    ("display_name", contact.displayName),
    ("addressbook_id", .str bookId)]).any fun statement =>
      rows.any fun row => statement.selects row.cell

/-- The address book is there, or is created under a new identifier. -/
inductive Opened (owner : String) (store : Store) : AddressBook → Store → Prop
  | found {book : AddressBook} (known : bookOf owner store = some book) :
      Opened owner store book store
  | created {book : AddressBook} (named : owner ≠ "")
      (none : bookOf owner store = none) (owned : book.owner = owner)
      (id : book.id ≠ "") (fresh : occurs book.id store = false) :
      Opened owner store book
        { store with addressbooks := store.addressbooks ++ [book] }

/-! How an operation ends when it runs alone. -/

section Runs

variable {engine : Engine} {service : Service} {owner : String}
variable {world final : World} {bookId : String}

def Ends (engine : Engine) (procedure : Procedure) (world final : World) :
    Prop :=
  ∃ choices rest, procedure.play (handle engine) healthy world choices =
    some (final, rest)

theorem ends_db {call : DbCall} {next : call.Result → Procedure}
    (h : Ends engine (.perform (.db call) next) world final) :
    Ends engine (next (execute engine call world.store).1)
      { world with store := (execute engine call world.store).2 } final := by
  obtain ⟨choices, rest, hplay⟩ := h
  obtain ⟨choice, choices, hhealthy, hnext⟩ := Program.play_perform hplay
  have hfailure : choice.failure = none := Option.isNone_iff_eq_none.mp hhealthy
  simp only [handle, hfailure] at hnext
  exact ⟨choices, rest, hnext⟩

theorem ends_uuid {next : String → Procedure}
    (h : Ends engine (.perform .uuid next) world final) :
    ∃ id, id ≠ "" ∧ occurs id world.store = false ∧
      Ends engine (next id) world final := by
  obtain ⟨choices, rest, hplay⟩ := h
  obtain ⟨choice, choices, hhealthy, hnext⟩ := Program.play_perform hplay
  obtain ⟨hnamed, hfresh⟩ := Bool.and_eq_true_iff.mp hhealthy
  exact ⟨choice.id, bne_iff_ne.mp hnamed, by simpa using hfresh,
    choices, rest, hnext⟩

theorem ends_getUsers {next : Option (List UserEntry) → Procedure}
    (h : Ends engine (.perform .getUsers next) world final) :
    ∃ users, Ends engine (next users) world final := by
  obtain ⟨choices, rest, hplay⟩ := h
  obtain ⟨choice, choices, _, hnext⟩ := Program.play_perform hplay
  exact ⟨choice.users, choices, rest, hnext⟩

theorem ends_answer {result : Answer}
    (h : Ends engine (answer result) world final) :
    final = { world with answers := world.answers ++ [result] } := by
  obtain ⟨choices, rest, hplay⟩ := h
  obtain ⟨choice, choices, _, hnext⟩ := Program.play_perform hplay
  exact Program.play_done hnext

theorem ends_of_play {procedure : Procedure} {store after : Store}
    {choices : List Choice} {answers : List Answer}
    (h : play engine procedure store choices = some (after, answers)) :
    Ends engine procedure ⟨store, []⟩ ⟨after, answers⟩ := by
  obtain ⟨⟨final, rest⟩, hplay, hfinal⟩ := Option.map_eq_some_iff.mp h
  obtain ⟨rfl, rfl⟩ := Prod.mk.inj hfinal
  exact ⟨choices, rest, hplay⟩

theorem execute_owner (named : owner ≠ "") (fields : List String)
    (store : Store) :
    ∃ rows, execute engine (.getAddressbooks fields [("owner", .str owner)])
        store = (.ok rows, store) ∧ rows.head? = bookOf owner store := by
  rcases IdentityServer.getStatement_spec fields [("owner", .str owner)] with
    ⟨hresolve, _⟩ | ⟨resolved, statement, hresolve, hstatement, hselects⟩
  · rw [IdentityServer.resolve_cons_str] at hresolve
    split at hresolve
    · cases hresolve
    · cases hresolve
  · rw [IdentityServer.resolve_cons_str, if_neg named] at hresolve
    cases hresolve
    refine ⟨store.addressbooks.filter fun row => statement.selects row.cell,
      by simp only [execute, hstatement], ?_⟩
    rw [List.head?_filter, bookOf, if_neg named]
    congr 1
    funext book
    rw [hselects]
    simp [IdentityServer.selectsAll, AddressBook.cell, Operator.test]

theorem execute_addressbookId (fields : List String) (store : Store) :
    ∃ rows, execute engine
        (.getContacts fields [("addressbook_id", .str bookId)]) store =
        (.ok rows, store) ∧ rows = store.contacts.filter (inBook bookId) := by
  rcases IdentityServer.getStatement_spec fields
      [("addressbook_id", .str bookId)] with
    ⟨hresolve, _⟩ | ⟨resolved, statement, hresolve, hstatement, hselects⟩
  · rw [IdentityServer.resolve_cons_str] at hresolve
    split at hresolve
    · cases hresolve
    · cases hresolve
  · refine ⟨store.contacts.filter fun row => statement.selects row.cell,
      by simp only [execute, hstatement], ?_⟩
    refine List.filter_congr fun row _ => ?_
    rw [hselects]
    rw [IdentityServer.resolve_cons_str] at hresolve
    split at hresolve
    · rename_i hempty
      cases hresolve
      simp [IdentityServer.selectsAll, inBook, hempty]
    · rename_i hnonempty
      cases hresolve
      simp [IdentityServer.selectsAll, ContactRow.cell, Operator.test, inBook,
        hnonempty]

/-- The address book is known afterwards, and no row is its yet when it is a
new one. -/
theorem Opened.bookOf_eq {store after : Store} {book : AddressBook}
    (opened : Opened owner store book after) :
    bookOf owner after = some book := by
  cases opened with
  | found known => exact known
  | created named none owned id fresh =>
      rw [bookOf, if_neg named] at none ⊢
      rw [List.find?_append, none]
      simp [owned]

theorem Opened.contacts_eq {store after : Store} {book : AddressBook}
    (opened : Opened owner store book after) :
    after.contacts = store.contacts := by
  cases opened with
  | found known => rfl
  | created named none owned id fresh => rfl

theorem not_inBook_of_fresh {store : Store} {id : String} (named : id ≠ "")
    (fresh : occurs id store = false) :
    ∀ row ∈ store.contacts, ¬ inBook id row = true := by
  intro row hrow
  simp only [occurs, Bool.or_eq_false_iff, List.any_eq_false,
    Bool.or_eq_true, not_or, beq_iff_eq] at fresh
  simp [inBook, named, (fresh.2 row hrow).2]

theorem Opened.ownRows_eq {store after : Store} {book : AddressBook}
    (opened : Opened owner store book after) :
    ownRows owner store = validRows book.id store.contacts := by
  cases opened with
  | found known => rw [ownRows, known, Option.elim_some]
  | created named none owned id fresh =>
      rw [ownRows, none, Option.elim_none]
      symm
      refine List.filter_eq_nil_iff.mpr fun row hrow => ?_
      simp [Bool.eq_false_iff.mpr (not_inBook_of_fresh id fresh row hrow)]

theorem Opened.ownRows_after {store after : Store} {book : AddressBook}
    (opened : Opened owner store book after) :
    ownRows owner after = ownRows owner store := by
  rw [opened.ownRows_eq, ownRows, opened.bookOf_eq, Option.elim_some,
    opened.contacts_eq]

theorem ends_getOrCreateUserAddressBook (named : owner ≠ "")
    {next : Option AddressBook → Procedure}
    (h : Ends engine (getOrCreateUserAddressBook owner next) world final) :
    ∃ book after, Opened owner world.store book after ∧
      Ends engine (next (some book)) { world with store := after } final := by
  rw [getOrCreateUserAddressBook, if_neg named] at h
  have hfirst := ends_db h
  obtain ⟨rows, hrows, hhead⟩ :=
    @execute_owner engine owner named ["*"] world.store
  rw [hrows] at hfirst
  cases rows with
  | cons book others =>
      exact ⟨book, world.store, .found hhead.symm, hfirst⟩
  | nil =>
      obtain ⟨id, hid, hfresh, hinsert⟩ := ends_uuid hfirst
      have hcreated := ends_db hinsert
      have hnew : (world.store.addressbooks.any (·.id == id)) = false :=
        (Bool.or_eq_false_iff.mp hfresh).1
      simp only [execute, hnew, Bool.false_eq_true, if_false] at hcreated
      exact ⟨⟨id, owner⟩, _, .created named hhead.symm rfl hid hfresh, hcreated⟩

/-! What a list shows. -/

theorem mem_sortByStringField {field : Contact → Option String}
    {emptyLast : Bool} {contacts : List Contact} {contact : Contact} :
    contact ∈ sortByStringField service field emptyLast contacts ↔
      contact ∈ contacts :=
  (List.mergeSort_perm _ _).mem_iff

theorem deduplicate_foldl (contacts : List Contact)
    (seen : List (Option String)) (kept : List Contact) :
    ∃ more, (contacts.foldl (fun (seen, kept) contact =>
        if contact.mxid ∈ seen then (seen, kept)
        else (contact.mxid :: seen, kept ++ [contact])) (seen, kept)).2 =
        kept ++ more ∧
      (∀ contact ∈ more, contact ∈ contacts ∧ contact.mxid ∉ seen) ∧
      (more.map Contact.mxid).Nodup ∧
      ∀ contact ∈ contacts, contact.mxid ∉ seen →
        ∃ other ∈ more, other.mxid = contact.mxid := by
  induction contacts generalizing seen kept with
  | nil => exact ⟨[], by simp, by simp, List.nodup_nil, by simp⟩
  | cons first rest ih =>
      rw [List.foldl_cons]
      dsimp only
      split
      · rename_i hseen
        obtain ⟨more, hfold, hmem, hnodup, hfound⟩ := ih seen kept
        refine ⟨more, hfold,
          fun contact h => (hmem contact h).imp_left (.tail _), hnodup, ?_⟩
        intro contact hcontact hunseen
        rcases List.mem_cons.mp hcontact with rfl | hrest
        · exact absurd hseen hunseen
        · exact hfound contact hrest hunseen
      · rename_i hunseen
        obtain ⟨more, hfold, hmem, hnodup, hfound⟩ :=
          ih (first.mxid :: seen) (kept ++ [first])
        refine ⟨first :: more, by rw [hfold, List.append_assoc]; rfl,
          ?_, ?_, ?_⟩
        · intro contact h
          rcases List.mem_cons.mp h with rfl | hmore
          · exact ⟨List.mem_cons_self, hunseen⟩
          · obtain ⟨hrest, hnew⟩ := hmem contact hmore
            exact ⟨.tail _ hrest, fun h => hnew (.tail _ h)⟩
        · refine List.nodup_cons.mpr ⟨fun h => ?_, hnodup⟩
          obtain ⟨contact, hcontact, hsame⟩ := List.mem_map.mp h
          refine (hmem contact hcontact).2 ?_
          rw [hsame]
          exact List.mem_cons_self
        · intro contact hcontact hnew
          by_cases hsame : first.mxid = contact.mxid
          · exact ⟨first, List.mem_cons_self, hsame⟩
          · rcases List.mem_cons.mp hcontact with rfl | hrest
            · exact absurd rfl hsame
            · obtain ⟨other, hother, hmxid⟩ := hfound contact hrest fun h =>
                (List.mem_cons.mp h).elim (fun h => hsame h.symm) hnew
              exact ⟨other, .tail _ hother, hmxid⟩

theorem deduplicateByMxid_nodup (contacts : List Contact) :
    ((deduplicateByMxid contacts).map Contact.mxid).Nodup := by
  obtain ⟨more, hfold, _, hnodup, _⟩ := deduplicate_foldl contacts [] []
  rw [deduplicateByMxid, hfold, List.nil_append]
  exact hnodup

theorem mem_of_mem_deduplicateByMxid {contacts : List Contact}
    {contact : Contact} (h : contact ∈ deduplicateByMxid contacts) :
    contact ∈ contacts := by
  obtain ⟨more, hfold, hmem, _⟩ := deduplicate_foldl contacts [] []
  rw [deduplicateByMxid, hfold, List.nil_append] at h
  exact (hmem contact h).1

theorem mem_deduplicateByMxid {contacts : List Contact} {contact : Contact}
    (h : contact ∈ contacts)
    (only : ∀ other ∈ contacts, other.mxid = contact.mxid → other = contact) :
    contact ∈ deduplicateByMxid contacts := by
  obtain ⟨more, hfold, hmem, _, hfound⟩ := deduplicate_foldl contacts [] []
  rw [deduplicateByMxid, hfold, List.nil_append]
  obtain ⟨other, hother, hmxid⟩ := hfound contact h List.not_mem_nil
  rw [← only other (hmem other hother).1 hmxid]
  exact hother

theorem mem_listAddressbookContacts {rows : List ContactRow}
    {contact : Contact} :
    contact ∈ listAddressbookContacts service
        (.ok (rows.filter (inBook bookId))) →
      ∃ row ∈ validRows bookId rows, normalizeContact row = contact := by
  intro h
  have hlisted := mem_sortByStringField.mp
    (mem_of_mem_deduplicateByMxid (mem_sortByStringField.mp h))
  obtain ⟨row, hrow, rfl⟩ := List.mem_map.mp hlisted
  rw [List.filter_filter] at hrow
  refine ⟨row, ?_, rfl⟩
  rw [validRows]
  simpa [Bool.and_comm] using hrow

theorem listed_of_only {rows : List ContactRow} {row : ContactRow}
    (h : row ∈ validRows bookId rows)
    (only : ∀ other ∈ validRows bookId rows, other.mxid = row.mxid →
      normalizeContact other = normalizeContact row) :
    normalizeContact row ∈ listAddressbookContacts service
      (.ok (rows.filter (inBook bookId))) := by
  have hrows : (rows.filter (inBook bookId)).filter validateContactData =
      validRows bookId rows := by
    rw [List.filter_filter, validRows]
    refine List.filter_congr fun other _ => Bool.and_comm _ _
  rw [listAddressbookContacts, hrows]
  refine mem_sortByStringField.mpr (mem_deduplicateByMxid
    (mem_sortByStringField.mpr (List.mem_map_of_mem h)) ?_)
  intro contact hcontact hmxid
  obtain ⟨other, hother, rfl⟩ :=
    List.mem_map.mp (mem_sortByStringField.mp hcontact)
  exact only other hother hmxid

theorem listAddressbookContacts_only {rows : List ContactRow}
    {contact other : Contact}
    (hcontact : contact ∈ listAddressbookContacts service (.ok rows))
    (hother : other ∈ listAddressbookContacts service (.ok rows))
    (same : contact.mxid = other.mxid) : contact = other :=
  List.inj_on_of_nodup_map (deduplicateByMxid_nodup _)
    (mem_sortByStringField.mp hcontact) (mem_sortByStringField.mp hother) same

/-- The contacts made of what the user directory answers. -/
def answeredContacts (service : Service) (wanted : Bool)
    (answered : Option (List UserEntry)) : List Contact :=
  if wanted && service.readsUserDb then
    (answered.getD []).filterMap (userDbContact service)
  else []

theorem virtual_of_mem {wanted : Bool} {answered : Option (List UserEntry)}
    {contact : Contact}
    (h : contact ∈ answeredContacts service wanted answered) :
    Virtual service contact := by
  unfold answeredContacts at h
  split at h
  · obtain ⟨entry, _, hentry⟩ := List.mem_filterMap.mp h
    exact ⟨entry, hentry⟩
  · exact absurd h List.not_mem_nil

theorem ends_list (named : owner ≠ "") {wanted : Bool}
    (h : Ends engine (list service owner wanted) world final) :
    ∃ book after answered, Opened owner world.store book after ∧
      final = ⟨after, world.answers ++ [.listed ⟨book.id, owner,
        mergeContacts service (listAddressbookContacts service
          (.ok (after.contacts.filter (inBook book.id))))
          (answeredContacts service wanted answered)⟩]⟩ := by
  obtain ⟨book, after, hopened, hbook⟩ :=
    ends_getOrCreateUserAddressBook named h
  have hcontacts := ends_db hbook
  obtain ⟨rows, hrows, rfl⟩ :=
    @execute_addressbookId engine book.id ["*"] after
  dsimp only at hcontacts
  rw [hrows] at hcontacts
  unfold getUserDbContacts at hcontacts
  unfold answeredContacts
  split at hcontacts
  · rename_i hread
    obtain ⟨answered, hanswer⟩ := ends_getUsers hcontacts
    exact ⟨book, after, answered, hopened, by
      rw [if_pos hread]
      exact ends_answer hanswer⟩
  · rename_i hskipped
    exact ⟨book, after, none, hopened, by
      rw [if_neg hskipped]
      exact ends_answer hcontacts⟩

/-- The contacts that a list shows, whether or not the address book is there
already. -/
def listedContacts (service : Service) (owner : String) (store : Store)
    (wanted : Bool) (answered : Option (List UserEntry)) : List Contact :=
  mergeContacts service
    (listAddressbookContacts service (.ok ((bookOf owner store).elim []
      fun book => store.contacts.filter (inBook book.id))))
    (answeredContacts service wanted answered)

/-! What the other operations write. -/

/-- What becomes of the rows when contacts are added, and which contacts are
reported. -/
inductive Added (driver : Driver) (bookId : String) :
    List ContactCreationPayload → List ContactRow → List Contact →
      List ContactRow → Prop
  | nil {rows : List ContactRow} : Added driver bookId [] rows [] rows
  | skip {contact : ContactCreationPayload}
      {rest : List ContactCreationPayload} {rows after : List ContactRow}
      {created : List Contact}
      (exists_ : contactExists contact bookId rows = true)
      (added : Added driver bookId rest rows created after) :
      Added driver bookId (contact :: rest) rows created after
  | insert {contact : ContactCreationPayload}
      {rest : List ContactCreationPayload} {rows after : List ContactRow}
      {created : List Contact} {id : String} (named : id ≠ "")
      (new : contactExists contact bookId rows = false)
      (added : Added driver bookId rest
        (rows ++ [insertedRow driver contact id bookId]) created after) :
      Added driver bookId (contact :: rest) rows
        (normalizeContact (insertedRow driver contact id bookId) :: created)
        after

theorem execute_contactExists (contact : ContactCreationPayload)
    (store : Store) :
    ∃ result, execute engine (.getContacts ["*"] [("mxid", contact.mxid),
        ("display_name", contact.displayName),
        ("addressbook_id", .str bookId)]) store = (result, store) ∧
      if contactExists contact bookId store.contacts then
        ∃ row rest, result = .ok (row :: rest)
      else result = .ok [] ∨ ∃ error, result = .error error := by
  refine ⟨_, rfl, ?_⟩
  unfold contactExists
  cases getStatement ["*"] [("mxid", contact.mxid),
      ("display_name", contact.displayName),
      ("addressbook_id", .str bookId)] with
  | none => exact .inr ⟨typeError, rfl⟩
  | some statement =>
      simp only [Option.any_some]
      split
      · rename_i hany
        obtain ⟨row, hrow, hselects⟩ := List.any_eq_true.mp hany
        exact List.exists_cons_of_ne_nil
          (List.ne_nil_of_mem (List.mem_filter.mpr ⟨hrow, hselects⟩)) |>.imp
            fun _ ⟨rest, h⟩ => ⟨rest, congrArg Except.ok h⟩
      · rename_i hnone
        refine .inl (congrArg Except.ok (List.filter_eq_nil_iff.mpr ?_))
        exact fun row hrow hselects =>
          hnone (List.any_eq_true.mpr ⟨row, hrow, hselects⟩)

theorem ends_insertContact {contact : ContactCreationPayload}
    {next : String → Except DbError (List ContactRow) → Procedure}
    (h : Ends engine (.perform .uuid fun id =>
      .perform (.db (.insertContact contact id bookId)) (next id)) world
      final) :
    ∃ id, id ≠ "" ∧
      Ends engine (next id (.ok [insertedRow engine.driver contact id bookId]))
        { world with store := { world.store with
          contacts := world.store.contacts ++
            [insertedRow engine.driver contact id bookId] } } final := by
  obtain ⟨id, hid, hfresh, hinserted⟩ := ends_uuid h
  have hstored := ends_db hinserted
  have hnew : (world.store.contacts.any (·.id == some id)) = false := by
    refine List.any_eq_false.mpr fun row hrow hsame => ?_
    have hother := List.any_eq_false.mp (Bool.or_eq_false_iff.mp hfresh).2
    exact hother row hrow (by rw [hsame]; rfl)
  simp only [execute, hnew, Bool.false_eq_true, if_false] at hstored
  exact ⟨id, hid, hstored⟩

theorem ends_addContact {contact : ContactCreationPayload}
    {next : Option Contact → Procedure}
    (h : Ends engine (addContact contact bookId next) world final) :
    if contactExists contact bookId world.store.contacts then
      Ends engine (next none) world final
    else
      ∃ id, id ≠ "" ∧
        Ends engine (next (some (normalizeContact
          (insertedRow engine.driver contact id bookId))))
          { world with store := { world.store with
            contacts := world.store.contacts ++
              [insertedRow engine.driver contact id bookId] } } final := by
  have hchecked := ends_db h
  obtain ⟨result, hresult, hcases⟩ :=
    @execute_contactExists engine bookId contact world.store
  rw [hresult] at hchecked
  have hnamed : ∀ id, id ≠ "" →
      truthy (insertedRow engine.driver contact id bookId).id = true :=
    fun id hid => by simp [insertedRow, truthy, hid]
  split at hcases
  · rename_i hexists
    obtain ⟨row, rest, rfl⟩ := hcases
    rw [if_pos hexists]
    exact hchecked
  · rename_i hmissing
    rw [if_neg hmissing]
    rcases hcases with rfl | ⟨error, rfl⟩
    · obtain ⟨id, hid, hends⟩ := ends_insertContact hchecked
      simp only [hnamed id hid, if_true] at hends
      exact ⟨id, hid, hends⟩
    · obtain ⟨id, hid, hends⟩ := ends_insertContact hchecked
      simp only [hnamed id hid, if_true] at hends
      exact ⟨id, hid, hends⟩

theorem ends_addEach {next : List Contact → Procedure}
    {contacts : List ContactCreationPayload} {createdContacts : List Contact}
    (h : Ends engine (addEach bookId next contacts createdContacts) world
      final) :
    ∃ created rows, Added engine.driver bookId contacts world.store.contacts
        created rows ∧
      Ends engine (next (createdContacts ++ created))
        { world with store := { world.store with contacts := rows } }
        final := by
  induction contacts generalizing createdContacts world with
  | nil => exact ⟨[], _, .nil, by rw [List.append_nil]; exact h⟩
  | cons contact rest ih =>
      have hadded := ends_addContact h
      split at hadded
      · rename_i hexists
        obtain ⟨created, rows, hrest, hends⟩ := ih hadded
        rw [Option.toList_none, List.append_nil] at hends
        exact ⟨created, rows, .skip hexists hrest, hends⟩
      · rename_i hmissing
        obtain ⟨id, hid, hinserted⟩ := hadded
        obtain ⟨created, rows, hrest, hends⟩ := ih hinserted
        refine ⟨_, rows, .insert hid (Bool.eq_false_iff.mpr hmissing) hrest, ?_⟩
        rw [Option.toList_some, List.append_assoc] at hends
        exact hends

theorem ends_addContacts (named : owner ≠ "")
    {contacts : Option (List ContactCreationPayload)}
    (h : Ends engine (addContacts owner contacts) world final) :
    ∃ book after created rows, Opened owner world.store book after ∧
      Added engine.driver book.id (contacts.getD []) after.contacts created
        rows ∧
      final = ⟨{ after with contacts := rows }, world.answers ++
        [.added (some ⟨book.id, owner, created⟩)]⟩ := by
  obtain ⟨book, after, hopened, hbook⟩ :=
    ends_getOrCreateUserAddressBook named h
  obtain ⟨created, rows, hadded, hends⟩ := ends_addEach hbook
  exact ⟨book, after, created, rows, hopened, hadded, ends_answer hends⟩

theorem ends_unowned {next : Option AddressBook → Procedure} {final : World}
    (h : Ends engine (getOrCreateUserAddressBook "" next) world final) :
    Ends engine (next none) world final := h

theorem ends_updateContact {id : String} {contact : ContactUpdatePayload}
    {start final : World}
    (h : Ends engine (updateContact id contact) start final) :
    final.store = (execute engine (.updateContacts contact "id" id)
      start.store).2 := by
  have hupdated := ends_db h
  split at hupdated
  · rw [ends_answer hupdated]
  · rw [ends_answer hupdated]

theorem ends_getContact {contactId : String} {start final : World}
    (h : Ends engine (getContact contactId) start final) :
    final.store = start.store := by
  have hread := ends_db h
  split at hread
  · rw [ends_answer hread]
    rfl
  · rw [ends_answer hread]
    rfl

theorem sameId (row : ContactRow) (id : String) :
    (row.cell "id").same (.text id) = (row.id == some id) := by
  cases hid : row.id with
  | none => simp [ContactRow.cell, hid, Cell.same]
  | some other => simp [ContactRow.cell, hid, Cell.same]

theorem ends_deleteContact {contactId : String} {start final : World}
    (h : Ends engine (deleteContact contactId) start final) :
    final.store = (execute engine (.deleteContacts "id" contactId)
      start.store).2 := by
  have hdeleted := ends_db h
  split at hdeleted
  · rw [ends_answer hdeleted]
  · rw [ends_answer hdeleted]

theorem refusesDelete_named {driver : Driver} {value : String}
    (named : value ≠ "") :
    refusesDelete driver.engine (.str value) = false := by
  unfold refusesDelete
  cases driver.engine with
  | sqlite => rfl
  | pg => simp [named]

theorem ownRows_deleted (left : ContactRow → Bool) (store : Store) :
    ownRows owner { store with contacts := store.contacts.filter left } =
      (ownRows owner store).filter left := by
  have hbook : bookOf owner { store with
      contacts := store.contacts.filter left } = bookOf owner store := rfl
  rw [ownRows, ownRows, hbook]
  cases bookOf owner store with
  | none => rfl
  | some book =>
      rw [Option.elim_some, Option.elim_some, validRows, validRows,
        List.filter_filter, List.filter_filter]
      exact List.filter_congr fun row _ => Bool.and_comm _ _

/-- What a deletion of the address book leaves. -/
structure Deleted (owner : String) (before after : Store) : Prop where
  contacts : ∀ row ∈ after.contacts, row ∈ before.contacts
  books : bookOf owner after = bookOf owner before ∨
    ∀ book, bookOf owner after = some book →
      book ∈ before.addressbooks ∧ bookOf owner before ≠ some book

theorem ends_delete (named : owner ≠ "") {start final : World}
    (h : Ends engine (delete owner) start final) :
    Deleted owner start.store final.store := by
  have hfirst := ends_db h
  obtain ⟨rows, hrows, hhead⟩ :=
    @execute_owner engine owner named ["id"] start.store
  rw [hrows] at hfirst
  cases rows with
  | nil =>
      rw [ends_answer hfirst]
      exact ⟨fun _ hrow => hrow, .inl rfl⟩
  | cons book others =>
      have hemptied := ends_db hfirst
      by_cases hrefused :
          refusesDelete engine.driver.engine (.str book.id) = true
      · simp only [execute, hrefused, if_true] at hemptied
        rw [ends_answer hemptied]
        exact ⟨fun _ hrow => hrow, .inl rfl⟩
      · simp only [execute, hrefused, if_false, Bool.false_eq_true]
          at hemptied
        have hdeleted := ends_db hemptied
        simp only [execute, hrefused, if_false, Bool.false_eq_true]
          at hdeleted
        rw [ends_answer hdeleted]
        refine ⟨fun row hrow => (List.mem_filter.mp hrow).1, .inr ?_⟩
        intro other hother
        rw [bookOf, if_neg named] at hother
        have hmem := List.mem_of_find?_eq_some hother
        obtain ⟨hbefore, hid⟩ := List.mem_filter.mp hmem
        refine ⟨hbefore, fun hsame => ?_⟩
        rw [← hhead] at hsame
        cases hsame
        simp [AddressBook.cell, Cell.same] at hid

theorem owner_of_bookOf {store : Store} {book : AddressBook}
    (h : bookOf owner store = some book) : book.owner = owner := by
  rw [bookOf] at h
  split at h
  · cases h
  · have howner := List.find?_some h
    simpa using howner

end Runs

end TwakeKickstart.TomServer.Addressbook
