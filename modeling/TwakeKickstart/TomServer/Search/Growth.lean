import TwakeKickstart.TomServer.Addressbook.Listing
import TwakeKickstart.TomServer.Search.Service

namespace TwakeKickstart.TomServer.Search

open Library Utils
open Addressbook
open IdentityServer (DirectoryRow Entry SupportedDatabases UserDb)
open UserInfo (ProfileRow)

/-! Sources that get one more row, and what a search then finds. -/

section Order

variable {service : Service}

/-- The order by which one contact of each Matrix ID is chosen. -/
def idOrder (service : Service) (a b : Contact) : Bool :=
  compareField service Contact.id true a b != .gt

theorem idOrder_iff (a b : Contact) :
    idOrder service a b = true ↔ b.id.getD "" = "" ∨ a.id.getD "" ≠ "" ∧
      (service.localeCompare (a.id.getD "") (b.id.getD "")).isLE :=
  fieldOrder_iff a b

variable [Std.TransCmp service.localeCompare]

theorem idOrder_trans (a b c : Contact) (hab : idOrder service a b = true)
    (hbc : idOrder service b c = true) : idOrder service a c = true :=
  fieldOrder_trans a b c hab hbc

theorem idOrder_total (a b : Contact) :
    (idOrder service a b || idOrder service b a) = true :=
  fieldOrder_total a b

theorem idOrder_eq_false {a b : Contact} (ha : a.id.getD "" ≠ "")
    (hb : b.id.getD "" ≠ "") :
    idOrder service b a = false ↔
      service.localeCompare (a.id.getD "") (b.id.getD "") = .lt := by
  rw [← Bool.not_eq_true, idOrder_iff, ← Std.OrientedCmp.gt_iff_lt]
  simp only [ha, hb, ne_eq, not_false_eq_true, true_and, false_or]
  cases service.localeCompare (b.id.getD "") (a.id.getD "") <;> decide

end Order

section Listed

variable {service : Service} {owner : String} {store : Store}

/-- The rows of the caller's address book that a list is made of. -/
def ownContacts (owner : String) (store : Store) : List Contact :=
  (ownRows owner store).map normalizeContact

theorem mem_listedContacts_iff [Std.TransCmp service.localeCompare]
    {contact : Contact} :
    contact ∈ listedContacts service owner store false none ↔
      least (idOrder service) ((ownContacts owner store).filter
        (·.mxid == contact.mxid)) = some contact := by
  have hrows : ((bookOf owner store).elim [] fun book =>
      store.contacts.filter (inBook book.id)).filter validateContactData =
      ownRows owner store := by
    unfold ownRows
    cases bookOf owner store with
    | none => rfl
    | some book =>
        rw [Option.elim_some, Option.elim_some, List.filter_filter, validRows]
        exact List.filter_congr fun row _ => Bool.and_comm _ _
  have hlisted : listedContacts service owner store false none =
      mergeContacts service (sortByStringField service Contact.displayName true
        (deduplicateByMxid (sortByStringField service Contact.id true
          (ownContacts owner store)))) [] := by
    rw [listedContacts, listAddressbookContacts, hrows, answeredContacts]
    rfl
  rw [hlisted, mergeContacts, List.filter_nil, List.append_nil,
    mem_sortByStringField, mem_sortByStringField, mem_deduplicateByMxid_iff,
    sortByStringField]
  exact iff_of_eq (congrArg (· = some contact)
    (find?_mergeSort idOrder_trans idOrder_total _ _))

theorem ownContacts_append {book : AddressBook} {row : ContactRow}
    (known : bookOf owner store = some book)
    (own : row.addressbookId = book.id) :
    ownContacts owner
        { store with contacts := store.contacts ++ [row] } =
      ownContacts owner store ++
        if validateContactData row then [normalizeContact row] else [] := by
  have hknown : bookOf owner { store with contacts := store.contacts ++ [row] } =
      some book := known
  have hin : inBook book.id row = true := by simp [inBook, own]
  rw [ownContacts, ownContacts, ownRows, ownRows, known, hknown,
    Option.elim_some, Option.elim_some, validRows, validRows,
    List.filter_append, List.map_append]
  congr 1
  rw [List.filter_cons, hin, Bool.true_and, List.filter_nil]
  split <;> rfl

theorem id_of_mem_ownContacts {contact : Contact}
    (h : contact ∈ ownContacts owner store) : contact.id.getD "" ≠ "" := by
  obtain ⟨row, hrow, rfl⟩ := List.mem_map.mp h
  have hvalid : validateContactData row = true := by
    unfold ownRows at hrow
    cases hbook : bookOf owner store with
    | none =>
        rw [hbook] at hrow
        exact absurd hrow List.not_mem_nil
    | some book =>
        rw [hbook, Option.elim_some] at hrow
        exact (Bool.and_eq_true_iff.mp (List.mem_filter.mp hrow).2).2
  exact id_ne_of_valid hvalid

/-- The new row is the one that is listed for its Matrix ID. -/
def TakesOver (service : Service) (owner : String) (store : Store)
    (row : ContactRow) : Prop :=
  validateContactData row = true ∧ ∀ older ∈ ownRows owner store,
    older.mxid = row.mxid →
    service.localeCompare (row.id.getD "") (older.id.getD "") = .lt

variable [Std.TransCmp service.localeCompare]

theorem least_append_row {book : AddressBook} {row : ContactRow}
    (known : bookOf owner store = some book)
    (own : row.addressbookId = book.id)
    (valid : validateContactData row = true) (mxid : Option String) :
    least (idOrder service) ((ownContacts owner
        { store with contacts := store.contacts ++ [row] }).filter
        (·.mxid == mxid)) =
      if row.mxid = mxid then
        match least (idOrder service)
            ((ownContacts owner store).filter (·.mxid == mxid)) with
        | none => some (normalizeContact row)
        | some older => some (if idOrder service older (normalizeContact row)
            then older else normalizeContact row)
      else least (idOrder service)
        ((ownContacts owner store).filter (·.mxid == mxid)) := by
  rw [ownContacts_append known own, if_pos valid, List.filter_append,
    List.filter_cons, List.filter_nil]
  by_cases hsame : row.mxid = mxid
  · have hrow : ((normalizeContact row).mxid == mxid) = true :=
      beq_iff_eq.mpr hsame
    rw [if_pos hsame, if_pos hrow,
      least_append idOrder_trans idOrder_total]
    cases least (idOrder service)
      ((ownContacts owner store).filter (·.mxid == mxid)) <;> rfl
  · have hrow : ¬ ((normalizeContact row).mxid == mxid) = true :=
      fun h => hsame (beq_iff_eq.mp h)
    rw [if_neg hsame, if_neg hrow, List.append_nil]

theorem listed_of_takesOver {book : AddressBook} {row : ContactRow}
    (known : bookOf owner store = some book)
    (own : row.addressbookId = book.id)
    (takesOver : TakesOver service owner store row) (contact : Contact) :
    contact ∈ listedContacts service owner
        { store with contacts := store.contacts ++ [row] } false none ↔
      contact = normalizeContact row ∨ contact.mxid ≠ row.mxid ∧
        contact ∈ listedContacts service owner store false none := by
  obtain ⟨hvalid, hbefore⟩ := takesOver
  rw [mem_listedContacts_iff, mem_listedContacts_iff,
    least_append_row known own hvalid]
  by_cases hsame : row.mxid = contact.mxid
  · rw [if_pos hsame]
    have hfirst : (match least (idOrder service)
          ((ownContacts owner store).filter (·.mxid == contact.mxid)) with
        | none => some (normalizeContact row)
        | some older => some (if idOrder service older (normalizeContact row)
            then older else normalizeContact row)) =
        some (normalizeContact row) := by
      cases hleast : least (idOrder service)
          ((ownContacts owner store).filter (·.mxid == contact.mxid)) with
      | none => rfl
      | some older =>
          obtain ⟨holder, hmxid⟩ :=
            List.mem_filter.mp (least_mem _ hleast)
          obtain ⟨olderRow, hrow, rfl⟩ := List.mem_map.mp holder
          have hlt := hbefore olderRow hrow
            ((beq_iff_eq.mp hmxid).trans hsame.symm)
          have hnot : idOrder service (normalizeContact olderRow)
              (normalizeContact row) = false := by
            rw [idOrder_eq_false (id_ne_of_valid hvalid)
              (id_of_mem_ownContacts holder)]
            exact hlt
          simp only [hnot, Bool.false_eq_true, if_false]
    rw [hfirst, Option.some_inj, eq_comm]
    simp [hsame]
  · rw [if_neg hsame]
    have hne : contact ≠ normalizeContact row := by
      rintro rfl
      exact hsame rfl
    simp [hne, Ne.symm hsame]

theorem listed_of_not_takesOver {book : AddressBook} {row : ContactRow}
    (known : bookOf owner store = some book)
    (own : row.addressbookId = book.id)
    (hidden : ¬ TakesOver service owner store row) (contact : Contact) :
    contact ∈ listedContacts service owner
        { store with contacts := store.contacts ++ [row] } false none ↔
      contact ∈ listedContacts service owner store false none := by
  rw [mem_listedContacts_iff, mem_listedContacts_iff]
  cases hvalid : validateContactData row with
  | false =>
      rw [ownContacts_append known own, hvalid, if_neg Bool.false_ne_true,
        List.append_nil]
  | true =>
      rw [least_append_row known own hvalid]
      by_cases hsame : row.mxid = contact.mxid
      · obtain ⟨olderRow, hrow, hmxid, hbefore⟩ : ∃ older ∈ ownRows owner store,
            older.mxid = row.mxid ∧ service.localeCompare
              (row.id.getD "") (older.id.getD "") ≠ .lt := by
          by_contra hnone
          refine hidden ⟨hvalid, fun older holder hmxid => ?_⟩
          by_contra hnot
          exact hnone ⟨older, holder, hmxid, hnot⟩
        have holder : normalizeContact olderRow ∈
            (ownContacts owner store).filter (·.mxid == contact.mxid) :=
          List.mem_filter.mpr ⟨List.mem_map_of_mem hrow,
            beq_iff_eq.mpr (hmxid.trans hsame)⟩
        have hle : idOrder service (normalizeContact olderRow)
            (normalizeContact row) = true := by
          refine Bool.eq_true_of_not_eq_false fun hfalse => hbefore ?_
          rw [idOrder_eq_false (id_ne_of_valid hvalid)
            (id_of_mem_ownContacts (List.mem_filter.mp holder).1)] at hfalse
          exact hfalse
        rw [if_pos hsame]
        cases hleast : least (idOrder service)
            ((ownContacts owner store).filter (·.mxid == contact.mxid)) with
        | none =>
            rw [least_eq_none] at hleast
            rw [hleast] at holder
            exact absurd holder List.not_mem_nil
        | some first =>
            have hfirst := least_le idOrder_trans idOrder_total hleast _ holder
            simp only [idOrder_trans _ _ _ hfirst hle, if_true]
      · rw [if_neg hsame]

end Listed

/-! What is found in the three sources. -/

section Found

variable {config : Config} {registry : Registry} {owner val : String}

theorem filterContacts_eq (predicate : String) (contacts : List Contact) :
    filterContacts predicate contacts =
      if contacts.any fun contact => contactMatches predicate contact == none
      then none
      else some (contacts.filter fun contact =>
        contactMatches predicate contact == some true) := by
  induction contacts with
  | nil => rfl
  | cons first rest ih =>
      rw [filterContacts, ih, List.any_cons, List.filter_cons]
      cases contactMatches predicate first with
      | none => rfl
      | some wanted =>
          rw [Option.bind_some, show (some wanted == none) = false from rfl,
            Bool.false_or]
          cases rest.any fun contact =>
              contactMatches predicate contact == none with
          | true => rfl
          | false => cases wanted <;> rfl

/-- The IDs that the address book gives. -/
def addressbookIds (config : Config) (registry : Registry)
    (owner predicate : String) : List String :=
  (addressbookPromise config registry owner predicate).getD []

/-- An ID that the other sources give. -/
def Elsewhere (config : Config) (registry : Registry)
    (predicate id : String) : Prop :=
  id ∈ matrixDbPromise config registry predicate ∨
    id ∈ (userDbPromise config registry predicate).getD []

theorem mem_found {id : String} :
    id ∈ (found config registry owner val).active ∨
        id ∈ (found config registry owner val).inactive ↔
      id ∈ addressbookIds config registry owner val ∨
        Elsewhere config registry val id := by
  have hactive : id ∈ (found config registry owner val).active ↔
      id ∈ matrixDbPromise config registry val ∨
        id ∈ addressbookIds config registry owner val := by
    rw [found, Found.ofLists, List.mem_eraseDups, List.mem_append]
    rfl
  have hinactive : id ∈ (found config registry owner val).inactive ↔
      id ∈ (userDbPromise config registry val).getD [] ∧
        id ∉ (found config registry owner val).active := by
    rw [found, Found.ofLists, List.mem_eraseDups, List.mem_filter,
      decide_eq_true_iff]
  rw [hinactive]
  unfold Elsewhere
  by_cases h : id ∈ (found config registry owner val).active
  · simp only [h, true_or, true_iff]
    rcases hactive.mp h with hmatrix | hbook
    · exact .inr (.inl hmatrix)
    · exact .inl hbook
  · have hnone := not_or.mp (fun hor => h (hactive.mpr hor))
    simp [h, hnone.1, hnone.2]

theorem mem_addressbookIds (searched : val ≠ "") (called : owner ≠ "")
    {id : String} :
    id ∈ addressbookIds config registry owner val ↔
      (∀ contact ∈ listedContacts config.addressbook owner
        registry.addressbook false none, contactMatches val contact ≠ none) ∧
      ∃ contact ∈ listedContacts config.addressbook owner
        registry.addressbook false none,
        contactMatches val contact = some true ∧ contact.mxid = some id := by
  rw [addressbookIds, addressbookPromise, if_neg (not_or.mpr
    ⟨searched, called⟩), filterContacts_eq]
  split
  · rename_i hany
    obtain ⟨contact, hcontact, hthrows⟩ := List.any_eq_true.mp hany
    rw [Option.map_none, Option.getD_none]
    refine iff_of_false List.not_mem_nil fun ⟨hall, _⟩ => ?_
    exact hall contact hcontact (beq_iff_eq.mp hthrows)
  · rename_i hnone
    have hall : ∀ contact ∈ listedContacts config.addressbook owner
        registry.addressbook false none, contactMatches val contact ≠ none :=
      fun contact hcontact hthrows => hnone (List.any_eq_true.mpr
        ⟨contact, hcontact, beq_iff_eq.mpr hthrows⟩)
    rw [Option.map_some, Option.getD_some, List.mem_filterMap]
    constructor
    · rintro ⟨contact, hcontact, hmxid⟩
      obtain ⟨hlisted, hwanted⟩ := List.mem_filter.mp hcontact
      exact ⟨hall, contact, hlisted, beq_iff_eq.mp hwanted, hmxid⟩
    · rintro ⟨_, contact, hlisted, hwanted, hmxid⟩
      exact ⟨contact, List.mem_filter.mpr
        ⟨hlisted, beq_iff_eq.mpr hwanted⟩, hmxid⟩

/-- No ID that was found is lost. -/
def Keeps (config : Config) (registry registry' : Registry)
    (owner val : String) : Prop :=
  ∀ id, id ∈ (found config registry owner val).active ∨
      id ∈ (found config registry owner val).inactive →
    id ∈ (found config registry' owner val).active ∨
      id ∈ (found config registry' owner val).inactive

theorem matrixIds_mono (serverName : String) {uids uids' : List (Option String)}
    (h : uids ⊆ uids') :
    matrixIds serverName uids ⊆ matrixIds serverName uids' := by
  intro id hid
  obtain ⟨uid, huid, hmap⟩ := List.mem_filterMap.mp hid
  exact List.mem_filterMap.mpr ⟨uid, h huid, hmap⟩

theorem filter_map_mono {Row Value : Type} {rows rows' : List Row}
    (h : rows ⊆ rows') (wanted : Row → Bool) (value : Row → Value) :
    (rows.filter wanted).map value ⊆ (rows'.filter wanted).map value := by
  intro found hfound
  obtain ⟨row, hrow, rfl⟩ := List.mem_map.mp hfound
  obtain ⟨hmem, hwanted⟩ := List.mem_filter.mp hrow
  exact List.mem_map_of_mem (List.mem_filter.mpr ⟨h hmem, hwanted⟩)

theorem ldapSearch_mono (server : IdentityServer.LdapServer)
    {entries entries' : List Entry} (h : entries ⊆ entries')
    (fields : List String) (text : List Char) :
    Option.Rel (· ⊆ ·) (server.search entries fields text)
      (server.search entries' fields text) := by
  unfold IdentityServer.LdapServer.search
  cases Ldap.parse text with
  | none => exact .none
  | some filter => exact .some (List.filter_subset _ (filter_map_mono h _ _))

theorem matching_mono {db db' : UserDb} (backend : db.backend = db'.backend)
    (h : db.entries ⊆ db'.entries) (fields searchFields : List String)
    (value : String) :
    Option.Rel (· ⊆ ·) (db.matching fields searchFields value)
      (db'.matching fields searchFields value) := by
  unfold UserDb.matching
  rw [← backend]
  cases db.backend with
  | empty => exact .some (List.Subset.refl _)
  | sql engine => exact .some (filter_map_mono h _ _)
  | ldap server => exact ldapSearch_mono server h fields _

theorem userDbPromise_mono {registry' : Registry}
    (backend : registry.users.backend = registry'.users.backend)
    (h : registry.users.entries ⊆ registry'.users.entries) :
    (userDbPromise config registry val).getD [] ⊆
      (userDbPromise config registry' val).getD [] := by
  unfold userDbPromise
  split
  · exact List.Subset.refl _
  · have hrows := matching_mono backend h ["uid"] searchFields val
    revert hrows
    generalize registry.users.matching ["uid"] searchFields val = answer
    generalize registry'.users.matching ["uid"] searchFields val = answer'
    intro hrows
    cases hrows with
    | none => exact List.Subset.refl _
    | some hsubset => exact matrixIds_mono _ (List.map_subset _ hsubset)

theorem matrixDbPromise_mono {registry' : Registry}
    (h : registry.profiles ⊆ registry'.profiles) :
    matrixDbPromise config registry val ⊆
      matrixDbPromise config registry' val := by
  unfold matrixDbPromise
  split
  · exact List.Subset.refl _
  · exact matrixIds_mono _ (filter_map_mono h _ _)

def withProfile (registry : Registry) (row : ProfileRow) : Registry :=
  { registry with profiles := registry.profiles ++ [row] }

def withEntry (registry : Registry) (entry : Entry) : Registry :=
  { registry with
    users := ⟨registry.users.backend, registry.users.entries ++ [entry]⟩ }

def withContact (registry : Registry) (row : ContactRow) : Registry :=
  { registry with addressbook :=
    { registry.addressbook with
      contacts := registry.addressbook.contacts ++ [row] } }

theorem keeps_profile (row : ProfileRow) :
    Keeps config registry (withProfile registry row) owner val := by
  have hmatrix : matrixDbPromise config registry val ⊆
      matrixDbPromise config (withProfile registry row) val :=
    matrixDbPromise_mono (List.subset_append_left _ _)
  intro id hid
  rw [mem_found] at hid ⊢
  exact hid.imp_right (Or.imp_left fun h => hmatrix h)

theorem keeps_entry (entry : Entry) :
    Keeps config registry (withEntry registry entry) owner val := by
  have husers : (userDbPromise config registry val).getD [] ⊆
      (userDbPromise config (withEntry registry entry) val).getD [] :=
    userDbPromise_mono rfl (List.subset_append_left _ _)
  intro id hid
  rw [mem_found] at hid ⊢
  exact hid.imp_right (Or.imp_right fun h => husers h)

/-- Where the new row is the one that is listed, the contacts that match
before are found elsewhere too: all of them when a test of the new row throws,
and the one of the same Matrix ID when the new row does not match. -/
def LosesNothing (config : Config) (registry : Registry) (owner val : String)
    (row : ContactRow) : Prop :=
  TakesOver config.addressbook owner registry.addressbook row →
    ∀ id ∈ addressbookIds config registry owner val,
      contactMatches val (normalizeContact row) = none ∨
        contactMatches val (normalizeContact row) = some false ∧
          row.mxid = some id →
      Elsewhere config registry val id

theorem keeps_contact [Std.TransCmp config.addressbook.localeCompare]
    {book : AddressBook} {row : ContactRow}
    (known : bookOf owner registry.addressbook = some book)
    (own : row.addressbookId = book.id) :
    Keeps config registry (withContact registry row) owner val ↔
      LosesNothing config registry owner val row := by
  have hkeeps : Keeps config registry (withContact registry row) owner val ↔
      ∀ id ∈ addressbookIds config registry owner val,
        id ∈ addressbookIds config (withContact registry row) owner val ∨
          Elsewhere config registry val id := by
    unfold Keeps
    constructor
    · intro keeps id hid
      exact mem_found.mp (keeps id (mem_found.mpr (.inl hid)))
    · intro keeps id hid
      refine mem_found.mpr ((mem_found.mp hid).elim (keeps id) .inr)
  have hcalled : owner ≠ "" := by
    rintro rfl
    cases known
  rw [hkeeps]
  by_cases hsearched : val = ""
  · have hnone : addressbookIds config registry owner val = [] := by
      rw [addressbookIds, addressbookPromise, if_pos (.inl hsearched)]
      rfl
    unfold LosesNothing
    simp [hnone]
  · by_cases htakes : TakesOver config.addressbook owner
        registry.addressbook row
    · have hlisted := listed_of_takesOver known own htakes
      unfold LosesNothing
      refine ⟨fun keeps _ id hid hlost => ?_, fun loses id hid => ?_⟩
      · refine (keeps id hid).resolve_left fun hfound => ?_
        rw [mem_addressbookIds hsearched hcalled] at hfound
        simp only [withContact, hlisted] at hfound
        obtain ⟨htests, contact, hcontact, hwanted, hmxid⟩ := hfound
        rcases hlost with hthrows | ⟨hrow, hsame⟩
        · exact htests _ (.inl rfl) hthrows
        · rcases hcontact with rfl | ⟨hother, _⟩
          · rw [hrow] at hwanted
            cases hwanted
          · exact hother (hmxid.trans hsame.symm)
      · by_cases hlost : contactMatches val (normalizeContact row) = none ∨
            contactMatches val (normalizeContact row) = some false ∧
              row.mxid = some id
        · exact .inr (loses htakes id hid hlost)
        · obtain ⟨hrow, hunmatched⟩ := not_or.mp hlost
          left
          rw [mem_addressbookIds hsearched hcalled] at hid ⊢
          simp only [withContact, hlisted]
          obtain ⟨htests, contact, hcontact, hwanted, hmxid⟩ := hid
          refine ⟨?_, ?_⟩
          · rintro other (rfl | ⟨_, hother⟩)
            · exact hrow
            · exact htests other hother
          · by_cases hsame : row.mxid = some id
            · refine ⟨normalizeContact row, .inl rfl, ?_, hsame⟩
              cases htest : contactMatches val (normalizeContact row) with
              | none => exact absurd htest hrow
              | some wanted =>
                  cases wanted with
                  | true => rfl
                  | false => exact absurd ⟨htest, hsame⟩ hunmatched
            · refine ⟨contact, .inr ⟨fun h => hsame ?_, hcontact⟩, hwanted,
                hmxid⟩
              rw [← h, hmxid]
    · have hlisted := listed_of_not_takesOver known own htakes
      refine iff_of_true (fun id hid => .inl ?_) fun h => absurd h htakes
      rw [mem_addressbookIds hsearched hcalled] at hid ⊢
      simp only [withContact, hlisted]
      exact hid

end Found

/-- One more profile or directory entry loses nothing; one more contact of the
caller loses nothing exactly when what its row hides is found elsewhere. -/
theorem search_grows_iff (config : Config)
    [Std.TransCmp config.addressbook.localeCompare] (registry : Registry)
    (owner val : String) :
    (∀ row, Keeps config registry (withProfile registry row) owner val) ∧
      (∀ entry, Keeps config registry (withEntry registry entry) owner val) ∧
      ∀ (book : AddressBook) (row : ContactRow),
        bookOf owner registry.addressbook = some book →
        row.addressbookId = book.id →
        (Keeps config registry (withContact registry row) owner val ↔
          LosesNothing config registry owner val row) :=
  ⟨keeps_profile, keeps_entry, fun _ _ known own => keeps_contact known own⟩

/-! Alice has Bob as a contact, and looks for him. -/

def aliceConfig : Config where
  enableAdditionalFeatures := false
  enableUserDirectory := false
  matrixEngine := .pg
  serverName := "example.org"
  addressbook := ⟨false, false, "", compare⟩

def bobRow : ContactRow :=
  ⟨some "b", "book", some "@bob:example.org", some "Bob", some 1⟩

def aliceRegistry : Registry where
  profiles := []
  users := ⟨.empty, []⟩
  addressbook := ⟨[⟨"book", "@alice:example.org"⟩], [bobRow]⟩

def carolRow (displayName : Option String) : ContactRow :=
  ⟨some "c", "book", some "@carol:example.org", displayName, some 1⟩

instance : Std.TransCmp aliceConfig.addressbook.localeCompare :=
  inferInstanceAs (Std.TransCmp (compare : String → String → Ordering))

theorem aliceRegistry_book :
    bookOf "@alice:example.org" aliceRegistry.addressbook =
      some ⟨"book", "@alice:example.org"⟩ := by
  decide

theorem search_grows_bobby :
    Keeps aliceConfig aliceRegistry
      (withContact aliceRegistry (carolRow (some "Bobby")))
      "@alice:example.org" "Bob" := by
  refine ((search_grows_iff aliceConfig aliceRegistry "@alice:example.org"
    "Bob").2.2 _ (carolRow (some "Bobby")) aliceRegistry_book rfl).mpr ?_
  have hmatch : contactMatches "Bob"
      (normalizeContact (carolRow (some "Bobby"))) = some true := by
    decide
  intro _ id _ hlost
  rw [hmatch] at hlost
  rcases hlost with h | ⟨h, _⟩ <;> cases h

/-- A contact without a name takes Bob out of the result. -/
theorem nameless_contact_hides_bob :
    ¬ Keeps aliceConfig aliceRegistry
      (withContact aliceRegistry (carolRow none)) "@alice:example.org"
      "Bob" := by
  rw [keeps_contact aliceRegistry_book rfl]
  intro loses
  have hrows : ownRows "@alice:example.org" aliceRegistry.addressbook =
      [bobRow] := by
    decide
  have hlisted : ∀ contact, contact ∈ listedContacts aliceConfig.addressbook
      "@alice:example.org" aliceRegistry.addressbook false none ↔
      contact = normalizeContact bobRow := by
    intro contact
    rw [mem_listedContacts_iff, ownContacts, hrows, List.map_singleton]
    by_cases hsame : (normalizeContact bobRow).mxid = contact.mxid
    · simp [hsame, least, eq_comm]
    · have hne : contact ≠ normalizeContact bobRow := fun h => hsame (by rw [h])
      simp [hsame, least, hne]
  have hbob : "@bob:example.org" ∈ addressbookIds aliceConfig aliceRegistry
      "@alice:example.org" "Bob" := by
    rw [mem_addressbookIds (by decide) (by decide)]
    simp only [hlisted, forall_eq, exists_eq_left]
    decide
  have htakes : TakesOver aliceConfig.addressbook "@alice:example.org"
      aliceRegistry.addressbook (carolRow none) := by
    refine ⟨by decide, fun older holder hmxid => ?_⟩
    rw [hrows, List.mem_singleton] at holder
    rw [holder] at hmxid
    exact absurd hmxid (by decide)
  rcases loses htakes "@bob:example.org" hbob (.inl (by decide)) with
    hmatrix | huser
  · revert hmatrix
    decide
  · revert huser
    decide

end TwakeKickstart.TomServer.Search
