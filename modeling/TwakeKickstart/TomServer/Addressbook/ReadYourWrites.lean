import TwakeKickstart.Library.Transition
import TwakeKickstart.TomServer.Addressbook.Alone

namespace TwakeKickstart.TomServer.Addressbook

open Library Utils
open IdentityServer (Driver Filter getStatement refusesDelete)

/-! Operations of one owner, one after the other, with a healthy database:
whether a list shows what was added before, and no longer what was deleted. -/

/-- The tables, and what the owner has asked for and been told: the payloads of
the contacts added, the contacts reported as created and not changed since, the
contacts listed, the Matrix IDs deleted and not added since. -/
structure History where
  store : Store
  asked : List ContactCreationPayload := []
  created : List Contact := []
  listed : List Contact := []
  deleted : List (Option String) := []

/-- An operation of the owner, with what the environment decides. -/
inductive Event where
  | list (includeUserDbContacts : Bool) (choices : List Choice)
  | addContacts (contacts : Option (List ContactCreationPayload))
      (choices : List Choice)
  | getContact (contactId : String) (choices : List Choice)
  | updateContact (id : String) (contact : ContactUpdatePayload)
      (choices : List Choice)
  | deleteContact (contactId : String) (choices : List Choice)
  | delete (choices : List Choice)

def Event.call (owner : String) : Event → Call × List Choice
  | .list wanted choices => (.list owner wanted, choices)
  | .addContacts contacts choices => (.addContacts owner contacts, choices)
  | .getContact contactId choices => (.getContact contactId, choices)
  | .updateContact id contact choices => (.updateContact id contact, choices)
  | .deleteContact contactId choices => (.deleteContact contactId, choices)
  | .delete choices => (.delete owner, choices)

def Answer.contacts : Answer → List Contact
  | .listed response => response.contacts
  | .added (some response) => response.contacts
  | _ => []

def History.record (history : History) (answers : List Answer) :
    Event → History
  | .list _ _ =>
      { history with
        listed := history.listed ++ answers.flatMap Answer.contacts }
  | .addContacts contacts _ =>
      let created := answers.flatMap Answer.contacts
      { history with
        asked := history.asked ++ contacts.getD []
        created := history.created ++ created
        deleted := history.deleted.filter fun mxid =>
          created.all fun contact => contact.mxid != mxid }
  | .getContact _ _ => history
  | .updateContact id _ _ =>
      { history with created := history.created.filter (·.id != some id) }
  | .deleteContact contactId _ =>
      { history with
        created := history.created.filter (·.id != some contactId)
        deleted := history.deleted ++ (history.listed.filter fun contact =>
          contact.id == some contactId).map Contact.mxid }
  | .delete _ => { history with created := [] }

def historyStep (engine : Engine) (service : Service) (owner : String)
    (history : History) (event : Event) : Option History :=
  let (call, choices) := event.call owner
  (play engine (call.program service) history.store choices).map
    fun (store, answers) => { history.record answers event with store }

/-- What the list shows: the contacts reported as created, with the name that
was given, and no contact of the address book whose Matrix ID was deleted. -/
structure ReadsItsWrites (engine : Engine) (service : Service)
    (history : History) (response : AddressbookListResponse) : Prop where
  created : ∀ contact ∈ history.created, contact ∈ response.contacts ∧
    ∃ payload ∈ history.asked,
      contact.mxid = columnText engine.driver payload.mxid ∧
      contact.displayName = columnText engine.driver payload.displayName
  deleted : ∀ contact ∈ response.contacts, contact.mxid ∈ history.deleted →
    Virtual service contact

/-- Every contact that is inserted has a Matrix ID, which no contact of the
address book has yet. -/
def NewMxids (driver : Driver) (bookId : String) :
    List ContactCreationPayload → List ContactRow → Prop
  | [], _ => True
  | contact :: rest, rows =>
      if contactExists contact bookId rows then
        NewMxids driver bookId rest rows
      else
        truthy (columnText driver contact.mxid) = true ∧
        (∀ row ∈ validRows bookId rows,
          row.mxid ≠ columnText driver contact.mxid) ∧
        ∀ id, NewMxids driver bookId rest
          (rows ++ [insertedRow driver contact id bookId])

/-- No two contacts of the address book have one Matrix ID: none is added that
has one already, and none deleted that leaves another. -/
def OneEach (engine : Engine) (owner : String) (history : History) :
    Event → Prop
  | .addContacts contacts _ => ∀ book after,
      Opened owner history.store book after →
      NewMxids engine.driver book.id (contacts.getD []) history.store.contacts
  | .deleteContact contactId _ => ∀ contact ∈ history.listed,
      contact.id = some contactId → ∀ row ∈ ownRows owner history.store,
        row.mxid = contact.mxid → row.id = some contactId
  | .delete _ => ∀ book ∈ history.store.addressbooks, book.owner = owner →
      bookOf owner history.store ≠ some book →
      ∀ row ∈ validRows book.id history.store.contacts,
        row.mxid ∉ history.deleted
  | _ => True

/-! The contacts reported as created are shown, and those deleted are not. -/

/-- Every contact that has been reported has a row, and no row of another
contact has its Matrix ID. -/
def Shown (created : List Contact) (rows : List ContactRow) : Prop :=
  ∀ contact ∈ created, (∃ row ∈ rows, normalizeContact row = contact) ∧
    ∀ row ∈ rows, row.mxid = contact.mxid → normalizeContact row = contact

theorem validRows_append (bookId : String) (rows : List ContactRow)
    (row : ContactRow) (valid : inBook bookId row && validateContactData row) :
    validRows bookId (rows ++ [row]) = validRows bookId rows ++ [row] := by
  rw [validRows, List.filter_append]
  congr 1
  exact List.filter_cons_of_pos valid

theorem Added.shown {driver : Driver} {bookId : String}
    {contacts : List ContactCreationPayload} {rows after : List ContactRow}
    {created before : List Contact}
    (added : Added driver bookId contacts rows created after)
    (new : NewMxids driver bookId contacts rows)
    (shown : Shown before (validRows bookId rows)) :
    Shown (before ++ created) (validRows bookId after) := by
  induction added generalizing before with
  | nil => rwa [List.append_nil]
  | skip exists_ added ih =>
      rw [NewMxids, if_pos exists_] at new
      exact ih new shown
  | insert named missing added ih =>
      rename_i contact rest rows after created id
      rw [NewMxids, missing] at new
      obtain ⟨htruthy, hnew, hrest⟩ := new
      have hvalid : (inBook bookId (insertedRow driver contact id bookId) &&
          validateContactData (insertedRow driver contact id bookId)) =
          true := by
        simp [inBook, validateContactData, insertedRow, htruthy]
        simp [truthy, named]
      rw [List.append_cons]
      refine ih (hrest id) ?_
      rw [validRows_append _ _ _ hvalid]
      intro other hother
      rcases List.mem_append.mp hother with hbefore | hinserted
      · obtain ⟨⟨row, hrow, hsame⟩, honly⟩ := shown other hbefore
        refine ⟨⟨row, List.mem_append_left _ hrow, hsame⟩, ?_⟩
        intro another hanother hmxid
        rcases List.mem_append.mp hanother with hold | hlast
        · exact honly another hold hmxid
        · cases List.mem_singleton.mp hlast
          subst hsame
          exact absurd hmxid.symm (hnew row hrow)
      · cases List.mem_singleton.mp hinserted
        refine ⟨⟨_, List.mem_append_right _ (List.mem_singleton_self _), rfl⟩,
          ?_⟩
        intro another hanother hmxid
        rcases List.mem_append.mp hanother with hold | hlast
        · exact absurd hmxid (hnew another hold)
        · rw [List.mem_singleton.mp hlast]

theorem Added.given {driver : Driver} {bookId : String}
    {contacts : List ContactCreationPayload} {rows after : List ContactRow}
    {created : List Contact}
    (added : Added driver bookId contacts rows created after) :
    ∀ contact ∈ created, ∃ payload ∈ contacts,
      contact.mxid = columnText driver payload.mxid ∧
      contact.displayName = columnText driver payload.displayName := by
  induction added with
  | nil => exact fun contact h => absurd h List.not_mem_nil
  | skip exists_ added ih =>
      intro contact hcontact
      obtain ⟨payload, hpayload, hgiven⟩ := ih contact hcontact
      exact ⟨payload, .tail _ hpayload, hgiven⟩
  | insert named missing added ih =>
      intro contact hcontact
      rcases List.mem_cons.mp hcontact with rfl | hrest
      · exact ⟨_, List.mem_cons_self, rfl, rfl⟩
      · obtain ⟨payload, hpayload, hgiven⟩ := ih contact hrest
        exact ⟨payload, .tail _ hpayload, hgiven⟩

theorem Added.rows {driver : Driver} {bookId : String}
    {contacts : List ContactCreationPayload} {rows after : List ContactRow}
    {created : List Contact}
    (added : Added driver bookId contacts rows created after) :
    ∀ row ∈ after, row ∈ rows ∨ normalizeContact row ∈ created := by
  induction added with
  | nil => exact fun row h => .inl h
  | skip exists_ added ih => exact ih
  | insert named missing added ih =>
      intro row hrow
      rcases ih row hrow with hold | hcreated
      · rcases List.mem_append.mp hold with hbefore | hlast
        · exact .inl hbefore
        · rw [List.mem_singleton.mp hlast]
          exact .inr List.mem_cons_self
      · exact .inr (.tail _ hcreated)

/-- What every operation keeps. -/
structure Kept (driver : Driver) (owner : String) (history : History) :
    Prop where
  shown : Shown history.created (ownRows owner history.store)
  given : ∀ contact ∈ history.created, ∃ payload ∈ history.asked,
    contact.mxid = columnText driver payload.mxid ∧
    contact.displayName = columnText driver payload.displayName
  deleted : ∀ row ∈ ownRows owner history.store,
    row.mxid ∉ history.deleted

theorem Shown.filter {created : List Contact} {rows : List ContactRow}
    {keep : Contact → Bool} {change : ContactRow → ContactRow}
    (shown : Shown created rows)
    (same : ∀ row ∈ rows, keep (normalizeContact row) = true →
      change row = row)
    (mxid : ∀ row, (change row).mxid = row.mxid) :
    Shown (created.filter keep) (rows.map change) := by
  intro contact hcontact
  obtain ⟨hcreated, hkeep⟩ := List.mem_filter.mp hcontact
  obtain ⟨⟨row, hrow, rfl⟩, honly⟩ := shown contact hcreated
  refine ⟨⟨row, List.mem_map.mpr ⟨row, hrow, same row hrow hkeep⟩, rfl⟩, ?_⟩
  intro other hother hmxid
  obtain ⟨old, hold, rfl⟩ := List.mem_map.mp hother
  rw [mxid] at hmxid
  have hnormal := honly old hold hmxid
  rw [same old hold (by rw [hnormal]; exact hkeep)]
  exact hnormal

theorem Shown.sublist {created : List Contact} {rows : List ContactRow}
    {keep : Contact → Bool} {left : ContactRow → Bool}
    (shown : Shown created rows)
    (same : ∀ row ∈ rows, keep (normalizeContact row) = true →
      left row = true) :
    Shown (created.filter keep) (rows.filter left) := by
  intro contact hcontact
  obtain ⟨hcreated, hkeep⟩ := List.mem_filter.mp hcontact
  obtain ⟨⟨row, hrow, rfl⟩, honly⟩ := shown contact hcreated
  exact ⟨⟨row, List.mem_filter.mpr ⟨hrow, same row hrow hkeep⟩, rfl⟩,
    fun other hother => honly other (List.mem_filter.mp hother).1⟩

section Steps

variable {engine : Engine} {service : Service} {owner : String}
variable {history : History} {world : World}

theorem Kept.unowned (kept : Kept engine.driver "" history) :
    history.created = [] := by
  refine List.eq_nil_iff_forall_not_mem.mpr fun contact hcontact => ?_
  obtain ⟨⟨row, hrow, _⟩, _⟩ := kept.shown contact hcontact
  exact absurd hrow List.not_mem_nil

theorem Kept.opened {book : AddressBook} {after : Store}
    {listed : List Contact} (kept : Kept engine.driver owner history)
    (opened : Opened owner history.store book after) :
    Kept engine.driver owner { history with store := after, listed } where
  shown := by
    rw [opened.ownRows_after]
    exact kept.shown
  given := kept.given
  deleted := by
    rw [opened.ownRows_after]
    exact kept.deleted

theorem Kept.list {wanted : Bool} {listed : List Contact}
    (kept : Kept engine.driver owner history)
    (ends : Ends engine (list service owner wanted) ⟨history.store, []⟩
      world) :
    Kept engine.driver owner
      { history with store := world.store, listed } := by
  by_cases hnamed : owner = ""
  · subst hnamed
    rw [ends_answer (ends_unowned ends)]
    exact ⟨kept.shown, kept.given, kept.deleted⟩
  · obtain ⟨book, after, answered, hopened, rfl⟩ := ends_list hnamed ends
    exact kept.opened hopened

theorem Kept.addContacts {contacts : Option (List ContactCreationPayload)}
    {choices : List Choice} (kept : Kept engine.driver owner history)
    (oneEach : OneEach engine owner history (.addContacts contacts choices))
    (ends : Ends engine (addContacts owner contacts) ⟨history.store, []⟩
      world) :
    Kept engine.driver owner
      { history.record world.answers (.addContacts contacts choices) with
        store := world.store } := by
  by_cases hnamed : owner = ""
  · subst hnamed
    rw [ends_answer (ends_unowned ends)]
    refine ⟨?_, ?_, fun row hrow => absurd hrow List.not_mem_nil⟩
    · simp only [History.record, kept.unowned]
      exact fun contact hcontact => absurd hcontact List.not_mem_nil
    · simp only [History.record, kept.unowned]
      exact fun contact hcontact => absurd hcontact List.not_mem_nil
  · obtain ⟨book, after, created, rows, hopened, hadded, rfl⟩ :=
      ends_addContacts hnamed ends
    rw [hopened.contacts_eq] at hadded
    have hnew := oneEach book after hopened
    have hrows : ownRows owner { after with contacts := rows } =
        validRows book.id rows := by
      have hbook : bookOf owner { after with contacts := rows } = some book :=
        hopened.bookOf_eq
      rw [ownRows, hbook, Option.elim_some]
    have hanswers : ([] ++ [Answer.added (some ⟨book.id, owner,
        created⟩)]).flatMap Answer.contacts = created := List.append_nil _
    simp only [History.record, hanswers]
    refine ⟨?_, ?_, ?_⟩
    · rw [hrows]
      refine hadded.shown hnew ?_
      rw [← hopened.ownRows_eq]
      exact kept.shown
    · intro contact hcontact
      rcases List.mem_append.mp hcontact with hbefore | hcreated
      · obtain ⟨payload, hpayload, hgiven⟩ := kept.given contact hbefore
        exact ⟨payload, List.mem_append_left _ hpayload, hgiven⟩
      · obtain ⟨payload, hpayload, hgiven⟩ := hadded.given contact hcreated
        exact ⟨payload, List.mem_append_right _ hpayload, hgiven⟩
    · intro row hrow hdeleted
      rw [hrows] at hrow
      obtain ⟨hstored, hvalid⟩ := List.mem_filter.mp hrow
      obtain ⟨hbefore, hother⟩ := List.mem_filter.mp hdeleted
      rcases hadded.rows row hstored with hold | hcreated
      · refine kept.deleted row ?_ hbefore
        rw [hopened.ownRows_eq]
        exact List.mem_filter.mpr ⟨hold, hvalid⟩
      · have hne := List.all_eq_true.mp hother (normalizeContact row) hcreated
        exact bne_iff_ne.mp hne rfl

theorem Kept.updateContact {id : String} {contact : ContactUpdatePayload}
    {choices : List Choice} (kept : Kept engine.driver owner history)
    (ends : Ends engine (updateContact id contact) ⟨history.store, []⟩
      world) :
    Kept engine.driver owner
      { history.record world.answers (.updateContact id contact choices) with
        store := world.store } := by
  let change := fun row : ContactRow =>
    if (row.cell "id").same (.text id) then
      updatedRow engine.driver contact row
    else row
  have hstore : world.store =
      { history.store with contacts := history.store.contacts.map change } :=
    ends_updateContact ends
  have hmxid : ∀ row, (change row).mxid = row.mxid := by
    intro row
    dsimp only [change]
    split
    · rfl
    · rfl
  have hkept : ∀ bookId row, (inBook bookId (change row) &&
      validateContactData (change row)) =
      (inBook bookId row && validateContactData row) := by
    intro bookId row
    dsimp only [change]
    split
    · rfl
    · rfl
  have hrows : ownRows owner world.store =
      (ownRows owner history.store).map change := by
    have hbook : bookOf owner world.store = bookOf owner history.store := by
      rw [hstore]
      rfl
    rw [ownRows, ownRows, hbook, hstore]
    cases bookOf owner history.store with
    | none => rfl
    | some book =>
        rw [Option.elim_some, Option.elim_some, validRows, List.filter_map]
        congr 1
        exact List.filter_congr fun row _ => hkept book.id row
  refine ⟨?_, ?_, ?_⟩
  · dsimp only [History.record]
    rw [hrows]
    refine kept.shown.filter ?_ hmxid
    intro row _ hother
    have hid : row.id ≠ some id := bne_iff_ne.mp hother
    dsimp only [change]
    rw [if_neg (by rw [sameId]; simpa using hid)]
  · exact fun contact hcontact =>
      kept.given contact (List.mem_filter.mp hcontact).1
  · intro row hrow
    dsimp only at hrow
    rw [hrows] at hrow
    obtain ⟨old, hold, rfl⟩ := List.mem_map.mp hrow
    rw [hmxid]
    exact kept.deleted old hold

theorem Kept.deleteContact {contactId : String} {choices : List Choice}
    (kept : Kept engine.driver owner history)
    (oneEach : OneEach engine owner history (.deleteContact contactId choices))
    (ends : Ends engine (deleteContact contactId) ⟨history.store, []⟩
      world) :
    Kept engine.driver owner
      { history.record world.answers (.deleteContact contactId choices) with
        store := world.store } := by
  have hstore := ends_deleteContact ends
  have hunnamed : ∀ row ∈ ownRows owner history.store, row.id ≠ some "" := by
    intro row hrow hid
    obtain ⟨book, _, hvalid⟩ : ∃ book, bookOf owner history.store = some book ∧
        row ∈ validRows book.id history.store.contacts := by
      rw [ownRows] at hrow
      cases hbook : bookOf owner history.store with
      | none =>
          rw [hbook] at hrow
          exact absurd hrow List.not_mem_nil
      | some book =>
          rw [hbook] at hrow
          exact ⟨book, rfl, hrow⟩
    have hdata := (Bool.and_eq_true_iff.mp (List.mem_filter.mp hvalid).2).2
    simp [validateContactData, truthy, hid] at hdata
  have hrows : ownRows owner world.store =
      (ownRows owner history.store).filter fun row =>
        row.id != some contactId := by
    by_cases hnamed : contactId = ""
    · have hsame : (ownRows owner history.store).filter
          (fun row => row.id != some contactId) =
          ownRows owner history.store := by
        refine List.filter_eq_self.mpr fun row hrow => ?_
        rw [hnamed]
        exact bne_iff_ne.mpr (hunnamed row hrow)
      rw [hsame, hstore]
      simp only [execute]
      split
      · rfl
      · rw [ownRows_deleted]
        refine List.filter_eq_self.mpr fun row hrow => ?_
        rw [sameId, hnamed]
        exact bne_iff_ne.mpr (hunnamed row hrow)
    · rw [hstore]
      simp only [execute, refusesDelete_named hnamed, Bool.false_eq_true,
        if_false]
      rw [ownRows_deleted]
      exact List.filter_congr fun row _ => by rw [sameId]; rfl
  refine ⟨?_, ?_, ?_⟩
  · dsimp only [History.record]
    rw [hrows]
    exact kept.shown.sublist fun row _ hother => hother
  · exact fun contact hcontact =>
      kept.given contact (List.mem_filter.mp hcontact).1
  · intro row hrow hdeleted
    dsimp only at hrow
    rw [hrows] at hrow
    obtain ⟨hold, hother⟩ := List.mem_filter.mp hrow
    rcases List.mem_append.mp hdeleted with hbefore | hnow
    · exact kept.deleted row hold hbefore
    · obtain ⟨contact, hcontact, hmxid⟩ := List.mem_map.mp hnow
      obtain ⟨hlisted, hid⟩ := List.mem_filter.mp hcontact
      exact bne_iff_ne.mp hother (oneEach contact hlisted
        (beq_iff_eq.mp hid) row hold hmxid.symm)

theorem Kept.delete {choices : List Choice}
    (kept : Kept engine.driver owner history)
    (oneEach : OneEach engine owner history (.delete choices))
    (ends : Ends engine (delete owner) ⟨history.store, []⟩ world) :
    Kept engine.driver owner
      { history.record world.answers (.delete choices) with
        store := world.store } := by
  refine ⟨fun contact hcontact => absurd hcontact List.not_mem_nil,
    fun contact hcontact => absurd hcontact List.not_mem_nil, ?_⟩
  intro row hrow
  by_cases hnamed : owner = ""
  · subst hnamed
    exact absurd hrow List.not_mem_nil
  · have hdeleted := ends_delete hnamed ends
    dsimp only [ownRows] at hrow
    cases hafter : bookOf owner world.store with
    | none =>
        rw [hafter] at hrow
        exact absurd hrow List.not_mem_nil
    | some book =>
        rw [hafter] at hrow
        obtain ⟨hstored, hvalid⟩ := List.mem_filter.mp hrow
        have hbefore : row ∈ validRows book.id history.store.contacts :=
          List.mem_filter.mpr ⟨hdeleted.contacts row hstored, hvalid⟩
        rcases hdeleted.books with hsame | hother
        · refine kept.deleted row ?_
          rw [ownRows, ← hsame, hafter]
          exact hbefore
        · obtain ⟨hbook, hnot⟩ := hother book hafter
          exact oneEach book hbook (owner_of_bookOf hafter) hnot row hbefore

theorem Kept.step {event : Event} {after : History}
    (kept : Kept engine.driver owner history)
    (oneEach : OneEach engine owner history event)
    (stepped : historyStep engine service owner history event = some after) :
    Kept engine.driver owner after := by
  obtain ⟨⟨store, answers⟩, hplay, rfl⟩ := Option.map_eq_some_iff.mp stepped
  have hends := ends_of_play hplay
  cases event with
  | list wanted choices => exact kept.list hends
  | addContacts contacts choices => exact kept.addContacts oneEach hends
  | getContact contactId choices =>
      have hstore := ends_getContact hends
      dsimp only at hstore
      subst hstore
      exact ⟨kept.shown, kept.given, kept.deleted⟩
  | updateContact id contact choices => exact kept.updateContact hends
  | deleteContact contactId choices => exact kept.deleteContact oneEach hends
  | delete choices => exact kept.delete oneEach hends

/-- As long as no two contacts of the address book have one Matrix ID, a list
shows every contact that was reported as created, under the name that was
given, and none that was deleted. -/
theorem list_readsItsWrites {store after : Store} {wanted : Bool}
    {choices : List Choice} {answers : List Answer}
    (reached : Reachable (historyStep engine service owner)
      (OneEach engine owner) { store } history)
    (h : play engine (list service owner wanted) history.store choices =
      some (after, answers)) :
    ∃ response, answers = [.listed response] ∧
      ReadsItsWrites engine service history response := by
  have hkept : Kept engine.driver owner history :=
    reached.invariant (Kept engine.driver owner)
      ⟨fun contact hcontact => absurd hcontact List.not_mem_nil,
        fun contact hcontact => absurd hcontact List.not_mem_nil,
        fun row _ => List.not_mem_nil⟩
      fun before event after hkept oneEach stepped =>
        hkept.step oneEach stepped
  have hends := ends_of_play h
  by_cases hnamed : owner = ""
  · subst hnamed
    obtain ⟨_, rfl⟩ := World.mk.inj (ends_answer (ends_unowned hends))
    refine ⟨⟨"", "", []⟩, rfl, ?_, fun contact hcontact =>
      absurd hcontact List.not_mem_nil⟩
    rw [hkept.unowned]
    exact fun contact hcontact => absurd hcontact List.not_mem_nil
  · obtain ⟨book, opened, answered, hopened, hfinal⟩ :=
      ends_list hnamed hends
    obtain ⟨rfl, rfl⟩ := World.mk.inj hfinal
    refine ⟨_, rfl, ?_, ?_⟩
    · intro contact hcontact
      refine ⟨?_, hkept.given contact hcontact⟩
      obtain ⟨⟨row, hrow, rfl⟩, honly⟩ := hkept.shown contact hcontact
      refine mem_sortByStringField.mpr (List.mem_append_left _ ?_)
      rw [hopened.ownRows_eq] at hrow honly
      rw [hopened.contacts_eq]
      exact listed_of_only hrow honly
    · intro contact hcontact hdeleted
      rcases List.mem_append.mp (mem_sortByStringField.mp hcontact) with
        hlisted | huser
      · obtain ⟨row, hrow, rfl⟩ := mem_listAddressbookContacts hlisted
        refine absurd hdeleted (hkept.deleted row ?_)
        rw [hopened.ownRows_eq, ← hopened.contacts_eq]
        exact hrow
      · exact virtual_of_mem (List.mem_filter.mp huser).1

end Steps

/-! Alice adds Bob, under one name and then under another. -/

def addsBob (displayName : String) (choices : List Choice) : Event :=
  .addContacts (some [⟨.str "@bob:example.org", .str displayName⟩]) choices

def firstBob : Event :=
  addsBob "Bob" [{}, { id := "a" }, {}, {}, { id := "b" }, {}, {}]

def secondBob : Event :=
  addsBob "Robert" [{}, {}, { id := "c" }, {}, {}]

/-- The contacts reported as created; a list then succeeds. -/
def createdAfter (events : List Event) : Option (List Contact) :=
  (runEvents (historyStep sampleEngine sampleService alice)
    (fun _ _ => true) events { store := ⟨[], []⟩ }).bind fun history =>
      (play sampleEngine (list sampleService alice false) history.store
        [{}, {}, {}]).map fun _ => history.created

theorem createdAfter_cases {events : List Event} {created : List Contact}
    (h : createdAfter events = some created) :
    ∃ history after answers,
      runEvents (historyStep sampleEngine sampleService alice)
        (fun _ _ => true) events { store := ⟨[], []⟩ } = some history ∧
      play sampleEngine (list sampleService alice false) history.store
        [{}, {}, {}] = some (after, answers) ∧
      history.created = created := by
  obtain ⟨history, hrun, hrest⟩ := Option.bind_eq_some_iff.mp h
  obtain ⟨⟨after, answers⟩, hplay, hcreated⟩ := Option.map_eq_some_iff.mp hrest
  exact ⟨history, after, answers, hrun, hplay, hcreated⟩

def bob (id displayName : String) : Contact :=
  ⟨some id, some "@bob:example.org", some displayName, true, "a"⟩

theorem list_readsItsWrites_added :
    ∃ history after answers response,
      historyStep sampleEngine sampleService alice { store := ⟨[], []⟩ }
        firstBob = some history ∧
      play sampleEngine (list sampleService alice false) history.store
        [{}, {}, {}] = some (after, answers) ∧
      answers = [.listed response] ∧ bob "b" "Bob" ∈ history.created ∧
      ReadsItsWrites sampleEngine sampleService history response := by
  have hcreated : createdAfter [firstBob] = some [bob "b" "Bob"] := by
    decide
  obtain ⟨history, after, answers, hrun, hplay, hbob⟩ :=
    createdAfter_cases hcreated
  have hstep : historyStep sampleEngine sampleService alice
      { store := ⟨[], []⟩ } firstBob = some history := by
    simpa [runEvents] using hrun
  have hfirst : OneEach sampleEngine alice { store := ⟨[], []⟩ } firstBob := by
    intro book after _
    have hnew : contactExists ⟨.str "@bob:example.org", .str "Bob"⟩ book.id [] =
        false := by
      simp [contactExists]
    simp only [Option.getD_some, NewMxids, hnew, Bool.false_eq_true, if_false]
    exact ⟨by decide, fun row hrow => absurd hrow List.not_mem_nil,
      fun _ => trivial⟩
  obtain ⟨response, hresponse, hreads⟩ :=
    list_readsItsWrites (.tail .refl hfirst hstep) hplay
  exact ⟨history, after, answers, response, hstep, hplay, hresponse,
    by rw [hbob]; exact List.mem_singleton_self _, hreads⟩

theorem addressbookId_of_virtual {service : Service} {contact : Contact}
    (virtual : Virtual service contact) : contact.addressbookId = "" := by
  obtain ⟨entry, hentry⟩ := virtual
  unfold userDbContact at hentry
  repeat' split at hentry
  all_goals first
    | cases hentry
      done
    | rw [← Option.some.inj hentry]

/-- Both names are reported as created, and only one is listed. -/
theorem second_name_hidden :
    ¬ ∀ (engine : Engine) (service : Service) (owner : String)
      (store : Store) (history : History) (wanted : Bool)
      (choices : List Choice) (after : Store) (answers : List Answer),
      Reachable (historyStep engine service owner) (fun _ _ => True)
        { store } history →
      play engine (list service owner wanted) history.store choices =
        some (after, answers) →
      ∃ response, answers = [.listed response] ∧
        ReadsItsWrites engine service history response := by
  intro h
  have hcreated : createdAfter [firstBob, secondBob] =
      some [bob "b" "Bob", bob "c" "Robert"] := by
    decide
  obtain ⟨history, after, answers, hrun, hplay, hbobs⟩ :=
    createdAfter_cases hcreated
  obtain ⟨response, hanswers, hreads⟩ := h sampleEngine sampleService alice
    ⟨[], []⟩ history false [{}, {}, {}] after answers
    (reachable_of_runEvents (fun _ _ _ => trivial) hrun) hplay
  obtain ⟨book, opened, answered, _, hfinal⟩ :=
    ends_list (by decide) (ends_of_play hplay)
  obtain ⟨_, hlisted⟩ := World.mk.inj hfinal
  rw [hanswers] at hlisted
  cases hlisted
  have hown : ∀ id displayName, bob id displayName ∈ history.created →
      bob id displayName ∈ listAddressbookContacts sampleService
        (.ok (opened.contacts.filter (inBook book.id))) := by
    intro id displayName hmem
    have hshown := (hreads.created _ hmem).1
    rcases List.mem_append.mp (mem_sortByStringField.mp hshown) with
      hlisted | huser
    · exact hlisted
    · have hid : "a" = "" := addressbookId_of_virtual
        (virtual_of_mem (List.mem_filter.mp huser).1)
      exact absurd hid (by decide)
  have hsame := listAddressbookContacts_only
    (hown "b" "Bob" (by rw [hbobs]; exact List.mem_cons_self))
    (hown "c" "Robert" (by
      rw [hbobs]
      exact List.mem_cons_of_mem _ (List.mem_singleton_self _))) rfl
  exact absurd hsame (by decide)

end TwakeKickstart.TomServer.Addressbook
