import TwakeKickstart.Library.Paths
import TwakeKickstart.TomServer.Addressbook.Listing

namespace TwakeKickstart.TomServer.Addressbook

open Library Utils
open Library.Program (Path path_perform path_done)

/-! The contacts of the address book and those of the user directory in one
list, on every path of `list`. -/

abbrev Performed := Sigma Effect.Result

namespace Performed

/-- The rows that the database has returned for the address book. -/
def rows : Performed → List ContactRow
  | ⟨.db (.getContacts _ _), .ok rows⟩ => rows
  | _ => []

def entries : Performed → List UserEntry
  | ⟨.getUsers, some entries⟩ => entries
  | _ => []

def contacts : Performed → List Contact
  | ⟨.answer (.listed response), _⟩ => response.contacts
  | _ => []

/-- The effect neither reads contacts nor answers. -/
structure Quiet (performed : Performed) : Prop where
  rows : performed.rows = []
  entries : performed.entries = []
  contacts : performed.contacts = []

end Performed

def contactRows (path : List Performed) : List ContactRow :=
  path.flatMap Performed.rows

def directoryEntries (path : List Performed) : List UserEntry :=
  path.flatMap Performed.entries

def listedOn (path : List Performed) : List Contact :=
  path.flatMap Performed.contacts

section Reading

variable {first second : List Performed}

theorem contactRows_cons (performed : Performed) :
    contactRows (performed :: first) =
      performed.rows ++ contactRows first := rfl

theorem directoryEntries_cons (performed : Performed) :
    directoryEntries (performed :: first) =
      performed.entries ++ directoryEntries first := rfl

theorem listedOn_cons (performed : Performed) :
    listedOn (performed :: first) =
      performed.contacts ++ listedOn first := rfl

theorem contactRows_append : contactRows (first ++ second) =
    contactRows first ++ contactRows second := List.flatMap_append

theorem directoryEntries_append : directoryEntries (first ++ second) =
    directoryEntries first ++ directoryEntries second := List.flatMap_append

theorem listedOn_append : listedOn (first ++ second) =
    listedOn first ++ listedOn second := List.flatMap_append

theorem contactRows_quiet (quiet : ∀ performed ∈ first, performed.Quiet) :
    contactRows first = [] :=
  List.flatMap_eq_nil_iff.mpr fun performed h => (quiet performed h).rows

theorem directoryEntries_quiet
    (quiet : ∀ performed ∈ first, performed.Quiet) :
    directoryEntries first = [] :=
  List.flatMap_eq_nil_iff.mpr fun performed h => (quiet performed h).entries

theorem listedOn_quiet (quiet : ∀ performed ∈ first, performed.Quiet) :
    listedOn first = [] :=
  List.flatMap_eq_nil_iff.mpr fun performed h => (quiet performed h).contacts

end Reading

/-- Each Matrix ID is listed once, with the entry of the address book if there
is one. -/
structure Merged (rows : List ContactRow) (contacts : List Contact) :
    Prop where
  mxids : (contacts.map Contact.mxid).Nodup
  own : ∀ row ∈ rows, validateContactData row = true →
    (∃ contact ∈ contacts, contact.mxid = row.mxid) ∧
    ∀ contact ∈ contacts, contact.mxid = row.mxid →
      ∃ other ∈ rows, contact = normalizeContact other

/-- Two entries of the directory give one Matrix ID only if it is in the
address book. -/
def DistinctUsers (service : Service) (rows : List ContactRow)
    (entries : List UserEntry) : Prop :=
  (entries.filterMap (userDbContact service)).Pairwise fun a b =>
    a.mxid = b.mxid →
      ∃ row ∈ rows, validateContactData row = true ∧ row.mxid = a.mxid

section Merge

variable {service : Service} {rows : List ContactRow}

/-- The contacts of a list before they are sorted by name. -/
def unsortedContacts (service : Service) (rows : List ContactRow)
    (virtual : List Contact) : List Contact :=
  let own := listAddressbookContacts service (.ok rows)
  own ++ virtual.filter fun contact =>
    !(own.map Contact.mxid).contains contact.mxid

theorem not_contains {mxids : List (Option String)} {mxid : Option String} :
    (!mxids.contains mxid) = true ↔ mxid ∉ mxids := by
  rw [Bool.not_eq_true', ← Bool.not_eq_true, List.contains_iff_mem]

theorem mergeContacts_perm (virtual : List Contact) :
    (mergeContacts service (listAddressbookContacts service (.ok rows))
      virtual).Perm (unsortedContacts service rows virtual) := by
  have hfilter : (virtual.filter fun contact => contact.mxid ∉
      (listAddressbookContacts service (.ok rows)).map Contact.mxid) =
      virtual.filter fun contact =>
        !((listAddressbookContacts service (.ok rows)).map
          Contact.mxid).contains contact.mxid :=
    List.filter_congr fun contact _ => by
      rw [Bool.eq_iff_iff, decide_eq_true_eq, not_contains]
  unfold mergeContacts unsortedContacts
  dsimp only
  rw [hfilter]
  exact List.mergeSort_perm _ _

theorem mem_own_mxids {mxid : Option String} :
    mxid ∈ (listAddressbookContacts service (.ok rows)).map Contact.mxid ↔
      ∃ row ∈ rows, validateContactData row = true ∧ row.mxid = mxid := by
  rw [List.mem_map]
  constructor
  · intro ⟨contact, hcontact, hmxid⟩
    obtain ⟨row, hrow, hvalid, rfl⟩ := exists_row_of_listed hcontact
    exact ⟨row, hrow, hvalid, hmxid⟩
  · intro ⟨row, hrow, hvalid, hmxid⟩
    obtain ⟨contact, hcontact, hsame⟩ := @exists_listed service rows _
      (mem_normalizedContacts.mpr ⟨row, hrow, hvalid, rfl⟩)
    exact ⟨contact, hcontact, hsame.trans hmxid⟩

theorem unsorted_nodup_iff (virtual : List Contact) :
    ((unsortedContacts service rows virtual).map Contact.mxid).Nodup ↔
      virtual.Pairwise fun a b => a.mxid = b.mxid →
        ∃ row ∈ rows, validateContactData row = true ∧ row.mxid = a.mxid := by
  have hdisjoint : ((listAddressbookContacts service (.ok rows)).map
      Contact.mxid).Disjoint ((virtual.filter fun contact =>
        !((listAddressbookContacts service (.ok rows)).map
          Contact.mxid).contains contact.mxid).map Contact.mxid) := by
    intro mxid hown hvirtual
    obtain ⟨contact, hcontact, rfl⟩ := List.mem_map.mp hvirtual
    exact not_contains.mp (List.mem_filter.mp hcontact).2 hown
  unfold unsortedContacts
  rw [List.map_append, List.nodup_append']
  simp only [List.Nodup, List.pairwise_map, List.pairwise_filter]
  have hown : List.Pairwise (fun a b : Contact => a.mxid ≠ b.mxid)
      (listAddressbookContacts service (.ok rows)) :=
    List.pairwise_map.mp (nodup_listAddressbookContacts rows)
  refine ⟨fun h => h.2.1.imp ?_, fun h => ⟨hown, h.imp ?_, hdisjoint⟩⟩
  · intro a b hdiffer hsame
    by_contra hmissing
    rw [← @mem_own_mxids service] at hmissing
    exact hdiffer (not_contains.mpr hmissing)
      (not_contains.mpr (hsame ▸ hmissing)) hsame
  · intro a b hcovered ha hb hsame
    exact not_contains.mp ha (mem_own_mxids.mpr (hcovered hsame))

/-- A contact with the Matrix ID of a row of the address book is made of such
a row. -/
theorem own_of_mem_unsorted {virtual : List Contact} {row : ContactRow}
    {contact : Contact} (hrow : row ∈ rows)
    (valid : validateContactData row = true)
    (h : contact ∈ unsortedContacts service rows virtual)
    (same : contact.mxid = row.mxid) :
    ∃ other ∈ rows, contact = normalizeContact other := by
  rcases List.mem_append.mp h with hown | hvirtual
  · obtain ⟨other, hother, _, hcontact⟩ := exists_row_of_listed hown
    exact ⟨other, hother, hcontact.symm⟩
  · have hmissing := not_contains.mp (List.mem_filter.mp hvirtual).2
    exact absurd (mem_own_mxids.mpr ⟨row, hrow, valid, same.symm⟩) hmissing

theorem merged_iff (entries : List UserEntry) :
    Merged rows (mergeContacts service
        (listAddressbookContacts service (.ok rows))
        (entries.filterMap (userDbContact service))) ↔
      DistinctUsers service rows entries := by
  have hperm := @mergeContacts_perm service rows
    (entries.filterMap (userDbContact service))
  rw [DistinctUsers, ← unsorted_nodup_iff,
    ← (hperm.map Contact.mxid).nodup_iff]
  refine ⟨fun h => h.mxids, fun hnodup => ⟨hnodup, fun row hrow hvalid =>
    ⟨?_, fun contact hcontact => ?_⟩⟩⟩
  · obtain ⟨contact, hcontact, hsame⟩ := @exists_listed service rows _
      (mem_normalizedContacts.mpr ⟨row, hrow, hvalid, rfl⟩)
    exact ⟨contact, hperm.mem_iff.mpr (List.mem_append_left _ hcontact), hsame⟩
  · exact own_of_mem_unsorted hrow hvalid (hperm.mem_iff.mp hcontact)

end Merge

/-! The paths of `list`. -/

section Paths

variable {service : Service} {owner : String} {wanted : Bool}
  {next : Option AddressBook → Procedure} {path : List Performed}

/-- After some effects that do not matter the path goes on with a book. -/
def Leads (next : Option AddressBook → Procedure) (path : List Performed) :
    Prop :=
  ∃ book before rest, path = before ++ rest ∧
    (∀ performed ∈ before, performed.Quiet) ∧ Path (next book) rest

theorem Leads.here {book : Option AddressBook} (h : Path (next book) path) :
    Leads next path :=
  ⟨book, [], path, rfl, fun _ hmem => absurd hmem List.not_mem_nil, h⟩

theorem Leads.later {performed : Performed} (quiet : performed.Quiet)
    (h : Leads next path) : Leads next (performed :: path) := by
  obtain ⟨book, before, rest, rfl, hquiet, hrest⟩ := h
  refine ⟨book, performed :: before, rest, rfl, ?_, hrest⟩
  intro other hother
  rcases List.mem_cons.mp hother with rfl | hmem
  · exact quiet
  · exact hquiet other hmem

theorem path_getUserAddressBook {onward : Option AddressBook → Procedure}
    (go : ∀ book rest, Path (onward book) rest → Leads next rest)
    (h : Path (getUserAddressBook owner onward) path) : Leads next path := by
  obtain ⟨result, rest, rfl, hrest⟩ := path_perform.mp h
  refine .later ⟨rfl, rfl, rfl⟩ ?_
  split at hrest
  · exact go _ _ hrest
  · exact go _ _ hrest

theorem path_createUserAddressBook
    {onward : Except DbError AddressBook → Procedure}
    (go : ∀ result rest, Path (onward result) rest → Leads next rest)
    (h : Path (createUserAddressBook owner onward) path) : Leads next path := by
  obtain ⟨id, rest, rfl, hinsert⟩ := path_perform.mp h
  obtain ⟨result, rest, rfl, hrest⟩ := path_perform.mp hinsert
  refine .later ⟨rfl, rfl, rfl⟩ (.later ⟨rfl, rfl, rfl⟩ ?_)
  split at hrest
  · exact go _ _ hrest
  · exact go _ _ hrest
  · exact go _ _ hrest

theorem path_createWithRetries {left : Nat}
    (h : Path (createWithRetries owner next left) path) : Leads next path := by
  induction left generalizing path with
  | zero => exact .here h
  | succ left ih =>
      refine path_createUserAddressBook (fun result rest hrest => ?_) h
      split at hrest
      · exact .here hrest
      · split at hrest
        · refine path_getUserAddressBook (fun book rest hbook => ?_) hrest
          split at hbook
          · exact .here hbook
          · split at hbook
            · exact .here hbook
            · obtain ⟨_, rest, rfl, hagain⟩ := path_perform.mp hbook
              exact .later ⟨rfl, rfl, rfl⟩ (ih hagain)
        · exact .here hrest

theorem path_getOrCreateUserAddressBook
    (h : Path (getOrCreateUserAddressBook owner next) path) :
    Leads next path := by
  unfold getOrCreateUserAddressBook at h
  split at h
  · exact .here h
  · refine path_getUserAddressBook (fun book rest hbook => ?_) h
    split at hbook
    · exact .here hbook
    · exact path_createWithRetries hbook

theorem path_answer {result : Answer} (h : Path (answer result) path) :
    path = [⟨.answer result, ()⟩] := by
  obtain ⟨_, rest, rfl, hrest⟩ := path_perform.mp h
  rw [path_done.mp hrest]

theorem path_getUserDbContacts {onward : List Contact → Procedure}
    (h : Path (getUserDbContacts service wanted onward) path) :
    ∃ before rest, path = before ++ rest ∧ contactRows before = [] ∧
      listedOn before = [] ∧
      Path (onward ((directoryEntries before).filterMap
        (userDbContact service))) rest := by
  unfold getUserDbContacts at h
  split at h
  · obtain ⟨users, rest, rfl, hrest⟩ := path_perform.mp h
    refine ⟨[⟨.getUsers, users⟩], rest, rfl, rfl, rfl, ?_⟩
    cases users with
    | none => exact hrest
    | some entries =>
        have hentries : directoryEntries [⟨.getUsers, some entries⟩] =
            entries := List.append_nil _
        rw [hentries]
        exact hrest
  · exact ⟨[], path, rfl, rfl, rfl, h⟩

theorem listAddressbookContacts_result
    (result : Except DbError (List ContactRow)) (fields : List String)
    (filter : IdentityServer.Filter) :
    listAddressbookContacts service result =
      listAddressbookContacts service
        (.ok (Performed.rows ⟨.db (.getContacts fields filter), result⟩)) := by
  cases result with
  | ok rows => rfl
  | error error =>
      symm
      exact List.eq_nil_iff_forall_not_mem.mpr fun contact h => by
        obtain ⟨row, hrow, _⟩ := exists_row_of_listed h
        exact absurd hrow List.not_mem_nil

theorem listAddressbookContacts_nil :
    listAddressbookContacts service (.ok []) = [] :=
  List.eq_nil_iff_forall_not_mem.mpr fun _ h =>
    have ⟨_, hrow, _⟩ := exists_row_of_listed h
    List.not_mem_nil hrow

theorem path_list (h : Path (list service owner wanted) path) :
    listedOn path = mergeContacts service
      (listAddressbookContacts service (.ok (contactRows path)))
      ((directoryEntries path).filterMap (userDbContact service)) := by
  obtain ⟨book, before, rest, rfl, hquiet, hrest⟩ :=
    path_getOrCreateUserAddressBook h
  rw [contactRows_append, directoryEntries_append, listedOn_append,
    contactRows_quiet hquiet, directoryEntries_quiet hquiet,
    listedOn_quiet hquiet]
  cases book with
  | none =>
      rw [path_answer hrest]
      have hnothing : mergeContacts service
          (listAddressbookContacts service (.ok [])) [] = [] := by
        rw [listAddressbookContacts_nil]
        exact List.mergeSort_nil
      exact hnothing.symm
  | some book =>
      obtain ⟨result, rest, rfl, husers⟩ := path_perform.mp hrest
      obtain ⟨asked, rest, rfl, hrows, hlisted, hanswer⟩ :=
        path_getUserDbContacts husers
      rw [path_answer hanswer, List.nil_append, List.nil_append,
        List.nil_append, contactRows_cons, directoryEntries_cons, listedOn_cons,
        contactRows_append, directoryEntries_append, listedOn_append, hrows,
        hlisted, listAddressbookContacts_result result ["*"]
          [("addressbook_id", .str book.id)]]
      simp [Performed.rows, Performed.entries, Performed.contacts,
        contactRows, directoryEntries, listedOn]

end Paths

/-- A list is free of duplicates exactly if the directory is, but for the
users of the address book. -/
theorem list_merged_iff {service : Service} {owner : String} {wanted : Bool}
    {path : List Performed} (h : Path (list service owner wanted) path) :
    Merged (contactRows path) (listedOn path) ↔
      DistinctUsers service (contactRows path) (directoryEntries path) := by
  rw [path_list h]
  exact merged_iff _

/-- The path on which an address book is found and everything is read. -/
def readingPath (service : Service) (book : AddressBook)
    (rows : List ContactRow) (entries : List UserEntry) : List Performed :=
  [⟨.db (.getAddressbooks ["*"] [("owner", .str book.owner)]), .ok [book]⟩,
    ⟨.db (.getContacts ["*"] [("addressbook_id", .str book.id)]), .ok rows⟩,
    ⟨.getUsers, some entries⟩,
    ⟨.answer (.listed ⟨book.id, book.owner, mergeContacts service
      (listAddressbookContacts service (.ok rows))
      (entries.filterMap (userDbContact service))⟩), ()⟩]

theorem path_readingPath {service : Service} {book : AddressBook}
    (named : book.owner ≠ "") (reads : service.readsUserDb = true)
    (rows : List ContactRow) (entries : List UserEntry) :
    Path (list service book.owner true)
      (readingPath service book rows entries) := by
  unfold list getOrCreateUserAddressBook
  rw [if_neg named]
  refine path_perform.mpr ⟨.ok [book], _, rfl, ?_⟩
  refine path_perform.mpr ⟨.ok rows, _, rfl, ?_⟩
  simp only [getUserDbContacts, reads, Bool.and_self, if_true]
  refine path_perform.mpr ⟨some entries, _, rfl, ?_⟩
  exact path_perform.mpr ⟨(), [], rfl, .done⟩

/-- The service reads the user directory. -/
def directoryService : Service where
  enableAdditionalFeatures := true
  hasUserDb := true
  serverName := "twake.app"
  localeCompare := compare

def bobBook : AddressBook := ⟨"book", "@bob:twake.app"⟩

def aliceEntry : UserEntry := ⟨some "alice", some "Alice", none⟩

theorem alice_contact : userDbContact directoryService aliceEntry =
    some ⟨some "alice", some "@alice:twake.app", some "Alice", true, ""⟩ := by
  decide

def carolEntry : UserEntry := ⟨some "carol", some "Carol", none⟩

def aliceRow : ContactRow :=
  ⟨some "row", "book", some "@alice:twake.app", some "Alice from work", some 1⟩

theorem carol_contact : userDbContact directoryService carolEntry =
    some ⟨some "carol", some "@carol:twake.app", some "Carol", true, ""⟩ := by
  decide

/-- Alice, who has two rows in the directory, is in Bob's address book. -/
theorem bob_list_merged_iff :
    Merged [aliceRow] (listedOn (readingPath directoryService bobBook
      [aliceRow] [aliceEntry, carolEntry, aliceEntry])) := by
  have hpath := @path_readingPath directoryService bobBook (by decide) rfl
    [aliceRow] [aliceEntry, carolEntry, aliceEntry]
  refine (list_merged_iff hpath).mpr ?_
  have hknown : ∃ row ∈ [aliceRow], validateContactData row = true ∧
      row.mxid = some "@alice:twake.app" :=
    ⟨aliceRow, List.mem_singleton_self _, by decide, rfl⟩
  change DistinctUsers directoryService [aliceRow]
    [aliceEntry, carolEntry, aliceEntry]
  rw [DistinctUsers, List.filterMap_cons_some alice_contact,
    List.filterMap_cons_some carol_contact,
    List.filterMap_cons_some alice_contact, List.filterMap_nil]
  refine .cons (fun _ _ _ => hknown) (.cons ?_ (List.pairwise_singleton _ _))
  intro other hother hsame
  rw [List.mem_singleton.mp hother] at hsame
  exact absurd hsame (by decide)
theorem alice_not_distinct :
    ¬ DistinctUsers directoryService [] [aliceEntry, aliceEntry] := by
  intro h
  rw [DistinctUsers, List.filterMap_cons_some alice_contact,
    List.filterMap_cons_some alice_contact, List.pairwise_cons] at h
  obtain ⟨_, hrow, _⟩ := h.1 _ List.mem_cons_self rfl
  exact absurd hrow List.not_mem_nil

/-- Bob's address book is empty, and Alice has two rows in the directory. -/
theorem alice_listed_twice :
    Path (list directoryService "@bob:twake.app" true)
        (readingPath directoryService bobBook [] [aliceEntry, aliceEntry]) ∧
      ¬ Merged [] (listedOn (readingPath directoryService bobBook []
        [aliceEntry, aliceEntry])) := by
  have hpath := @path_readingPath directoryService bobBook (by decide) rfl []
    [aliceEntry, aliceEntry]
  refine ⟨hpath, ?_⟩
  rw [path_list hpath]
  exact fun h => alice_not_distinct ((merged_iff _).mp h)

end TwakeKickstart.TomServer.Addressbook
