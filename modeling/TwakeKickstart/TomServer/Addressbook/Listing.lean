import TwakeKickstart.Library.Least
import TwakeKickstart.TomServer.Addressbook.Alone

namespace TwakeKickstart.TomServer.Addressbook

open Library Utils

/-! What `_listAddressbookContacts` makes of the rows of an address book. -/

section Order

variable {service : Service} {field : Contact → Option String}

/-- The order that a sort by a field follows. -/
def fieldOrder (service : Service) (field : Contact → Option String)
    (a b : Contact) : Bool :=
  compareField service field true a b != .gt

theorem fieldOrder_iff (a b : Contact) :
    fieldOrder service field a b = true ↔
      (field b).getD "" = "" ∨ (field a).getD "" ≠ "" ∧
        (service.localeCompare ((field a).getD "")
          ((field b).getD "")).isLE := by
  unfold fieldOrder compareField
  generalize (field a).getD "" = strA
  generalize (field b).getD "" = strB
  by_cases ha : strA = ""
  · by_cases hb : strB = ""
    · simp [ha, hb]
    · simp [ha, hb]
  · by_cases hb : strB = ""
    · simp [ha, hb]
    · simp only [ha, hb, and_self, if_false, false_or, ne_eq,
        not_false_eq_true, true_and]
      cases service.localeCompare strA strB <;> decide

variable [Std.TransCmp service.localeCompare]

theorem fieldOrder_trans (a b c : Contact)
    (hab : fieldOrder service field a b = true)
    (hbc : fieldOrder service field b c = true) :
    fieldOrder service field a c = true := by
  rw [fieldOrder_iff] at *
  rcases hbc with hc | ⟨hb, hbc⟩
  · exact .inl hc
  · obtain ⟨ha, hab⟩ := hab.resolve_left hb
    exact .inr ⟨ha, Std.TransCmp.isLE_trans hab hbc⟩

theorem fieldOrder_total (a b : Contact) :
    (fieldOrder service field a b || fieldOrder service field b a) = true := by
  rw [Bool.or_eq_true, fieldOrder_iff, fieldOrder_iff]
  by_cases ha : (field a).getD "" = ""
  · exact .inr (.inl ha)
  · by_cases hb : (field b).getD "" = ""
    · exact .inl (.inl hb)
    · cases hcompare : (service.localeCompare ((field a).getD "")
          ((field b).getD "")).isLE with
      | true => exact .inl (.inr ⟨ha, rfl⟩)
      | false =>
          refine .inr (.inr ⟨hb, Std.OrientedCmp.isLE_of_isGE ?_⟩)
          revert hcompare
          cases service.localeCompare ((field a).getD "") ((field b).getD "")
            <;> decide

theorem pairwise_sortByStringField (contacts : List Contact) :
    (sortByStringField service field true contacts).Pairwise fun a b =>
      fieldOrder service field a b = true :=
  List.pairwise_mergeSort fieldOrder_trans fieldOrder_total contacts

end Order

theorem mem_deduplicate_foldl {contact : Contact} (contacts : List Contact)
    (seen : List (Option String)) (kept : List Contact) :
    contact ∈ (contacts.foldl (fun (seen, kept) contact =>
        if contact.mxid ∈ seen then (seen, kept)
        else (contact.mxid :: seen, kept ++ [contact])) (seen, kept)).2 ↔
      contact ∈ kept ∨ contact.mxid ∉ seen ∧
        contacts.find? (·.mxid == contact.mxid) = some contact := by
  induction contacts generalizing seen kept with
  | nil => simp
  | cons first rest ih =>
      rw [List.foldl_cons, List.find?_cons]
      dsimp only
      by_cases hsame : first.mxid = contact.mxid
      · by_cases hseen : first.mxid ∈ seen
        · rw [if_pos hseen, ih, ← hsame]
          simp [hseen]
        · rw [if_neg hseen, ih, ← hsame]
          simp [hseen, eq_comm]
      · have hother : (first.mxid == contact.mxid) = false :=
          beq_eq_false_iff_ne.mpr hsame
        have hne : contact ≠ first := fun h => hsame (by rw [h])
        by_cases hseen : first.mxid ∈ seen
        · rw [if_pos hseen, ih, hother]
        · rw [if_neg hseen, ih, hother]
          simp [hne, Ne.symm hsame]

theorem mem_deduplicateByMxid_iff {contacts : List Contact}
    {contact : Contact} :
    contact ∈ deduplicateByMxid contacts ↔
      contacts.find? (·.mxid == contact.mxid) = some contact := by
  rw [deduplicateByMxid, mem_deduplicate_foldl]
  simp

theorem mem_deduplicate_sorted {service : Service}
    [Std.TransCmp service.localeCompare] {contacts : List Contact}
    {contact : Contact} :
    contact ∈ deduplicateByMxid
        (sortByStringField service Contact.id true contacts) ↔
      least (fieldOrder service Contact.id)
        (contacts.filter (·.mxid == contact.mxid)) = some contact := by
  rw [mem_deduplicateByMxid_iff]
  exact iff_of_eq (congrArg (· = some contact)
    (find?_mergeSort fieldOrder_trans fieldOrder_total _ _))

/-! The rows that can be listed. -/

theorem truthy_iff {text : Option String} :
    truthy text = true ↔ ∃ value, text = some value ∧ value ≠ "" := by
  cases text with
  | none => simp [truthy]
  | some value => simp [truthy]

theorem id_ne_of_valid {row : ContactRow}
    (valid : validateContactData row = true) : row.id.getD "" ≠ "" := by
  obtain ⟨id, hid, hnamed⟩ :=
    truthy_iff.mp (Bool.and_eq_true_iff.mp valid).1
  rw [hid]
  exact hnamed

/-- One contact for each Matrix ID of the rows that have an identifier: a row
with the least of them, and the contacts in the order of their names. -/
structure Lists (service : Service) (rows : List ContactRow)
    (contacts : List Contact) : Prop where
  sorted : contacts.Pairwise fun a b => b.displayName.getD "" = "" ∨
    a.displayName.getD "" ≠ "" ∧
      (service.localeCompare (a.displayName.getD "")
        (b.displayName.getD "")).isLE
  mxids : (contacts.map Contact.mxid).Nodup
  listed : ∀ mxid : String, mxid ≠ "" →
    ((∃ contact ∈ contacts, contact.mxid = some mxid) ↔
      ∃ row ∈ rows, row.mxid = some mxid ∧
        ∃ id, row.id = some id ∧ id ≠ "")
  least : ∀ contact ∈ contacts, ∃ row ∈ rows, ∃ id mxid,
    contact = normalizeContact row ∧
    row.id = some id ∧ id ≠ "" ∧ row.mxid = some mxid ∧ mxid ≠ "" ∧
    ∀ other ∈ rows, other.mxid = some mxid → ∀ otherId,
      other.id = some otherId → otherId ≠ "" →
      (service.localeCompare id otherId).isLE

section Listing

variable {service : Service} {rows : List ContactRow} {row : ContactRow}

/-- The contacts before they are sorted. -/
def normalizedContacts (rows : List ContactRow) : List Contact :=
  (rows.filter validateContactData).map normalizeContact

theorem mem_normalizedContacts {contact : Contact} :
    contact ∈ normalizedContacts rows ↔
      ∃ row ∈ rows, validateContactData row = true ∧
        normalizeContact row = contact := by
  unfold normalizedContacts
  rw [List.mem_map]
  simp only [List.mem_filter, and_assoc]

theorem nodup_listAddressbookContacts (rows : List ContactRow) :
    ((listAddressbookContacts service (.ok rows)).map Contact.mxid).Nodup := by
  have hperm := (List.mergeSort_perm (deduplicateByMxid (sortByStringField
    service Contact.id true (normalizedContacts rows))) fun a b =>
      compareField service Contact.displayName true a b != .gt).map Contact.mxid
  exact hperm.nodup_iff.mpr (deduplicateByMxid_nodup _)

theorem exists_listed {contact : Contact}
    (h : contact ∈ normalizedContacts rows) :
    ∃ other ∈ listAddressbookContacts service (.ok rows),
      other.mxid = contact.mxid := by
  obtain ⟨more, hfold, _, _, hfound⟩ := deduplicate_foldl
    (sortByStringField service Contact.id true (normalizedContacts rows)) [] []
  obtain ⟨other, hother, hsame⟩ :=
    hfound contact (mem_sortByStringField.mpr h) List.not_mem_nil
  refine ⟨other, mem_sortByStringField.mpr ?_, hsame⟩
  rw [deduplicateByMxid]
  exact hfold ▸ hother

theorem exists_row_of_listed {contact : Contact}
    (h : contact ∈ listAddressbookContacts service (.ok rows)) :
    ∃ row ∈ rows, validateContactData row = true ∧
      normalizeContact row = contact :=
  mem_normalizedContacts.mp (mem_sortByStringField.mp
    (mem_of_mem_deduplicateByMxid (mem_sortByStringField.mp h)))

variable [Std.TransCmp service.localeCompare]

theorem mem_listAddressbookContacts_iff {contact : Contact} :
    contact ∈ listAddressbookContacts service (.ok rows) ↔
      least (fieldOrder service Contact.id)
        ((normalizedContacts rows).filter (·.mxid == contact.mxid)) =
          some contact := by
  rw [← mem_deduplicate_sorted]
  exact mem_sortByStringField

theorem least_of_listed {contact : Contact}
    (h : contact ∈ listAddressbookContacts service (.ok rows)) :
    ∃ row ∈ rows, ∃ id mxid, contact = normalizeContact row ∧
      row.id = some id ∧ id ≠ "" ∧ row.mxid = some mxid ∧ mxid ≠ "" ∧
      ∀ other ∈ rows, other.mxid = some mxid → ∀ otherId,
        other.id = some otherId → otherId ≠ "" →
        (service.localeCompare id otherId).isLE := by
  have hleast := mem_listAddressbookContacts_iff.mp h
  obtain ⟨row, hrow, hvalid, rfl⟩ := mem_normalizedContacts.mp
    (List.mem_of_mem_filter (least_mem _ hleast))
  obtain ⟨hid, hmxid⟩ := Bool.and_eq_true_iff.mp hvalid
  obtain ⟨id, hid, hnamed⟩ := truthy_iff.mp hid
  obtain ⟨mxid, hmxid, hnonempty⟩ := truthy_iff.mp hmxid
  refine ⟨row, hrow, id, mxid, rfl, hid, hnamed, hmxid, hnonempty, ?_⟩
  intro other hother hsame otherId hotherId hotherNamed
  have hotherValid : validateContactData other = true :=
    Bool.and_eq_true_iff.mpr ⟨truthy_iff.mpr ⟨otherId, hotherId, hotherNamed⟩,
      truthy_iff.mpr ⟨mxid, hsame, hnonempty⟩⟩
  have hmem : normalizeContact other ∈ (normalizedContacts rows).filter
      (·.mxid == (normalizeContact row).mxid) :=
    List.mem_filter.mpr
      ⟨mem_normalizedContacts.mpr ⟨other, hother, hotherValid, rfl⟩,
        beq_iff_eq.mpr (hsame.trans hmxid.symm)⟩
  have hle := least_le fieldOrder_trans fieldOrder_total hleast _ hmem
  have hids : (normalizeContact row).id = some id ∧
      (normalizeContact other).id = some otherId := ⟨hid, hotherId⟩
  rw [fieldOrder_iff, hids.1, hids.2] at hle
  exact (hle.resolve_left hotherNamed).2

/-- The list has one contact for each Matrix ID, by name. -/
theorem listAddressbookContacts_lists (service : Service)
    [Std.TransCmp service.localeCompare] (rows : List ContactRow) :
    Lists service rows (listAddressbookContacts service (.ok rows)) where
  sorted := (pairwise_sortByStringField _).imp fun h =>
    (fieldOrder_iff _ _).mp h
  mxids := nodup_listAddressbookContacts rows
  listed := by
    intro mxid hnonempty
    constructor
    · intro ⟨contact, hcontact, hmxid⟩
      obtain ⟨row, hrow, id, other, rfl, hid, hnamed, hother, _⟩ :=
        least_of_listed hcontact
      exact ⟨row, hrow, hmxid, id, hid, hnamed⟩
    · intro ⟨row, hrow, hmxid, id, hid, hnamed⟩
      have hvalid : validateContactData row = true :=
        Bool.and_eq_true_iff.mpr ⟨truthy_iff.mpr ⟨id, hid, hnamed⟩,
          truthy_iff.mpr ⟨mxid, hmxid, hnonempty⟩⟩
      obtain ⟨contact, hcontact, hsame⟩ := @exists_listed service rows _
        (mem_normalizedContacts.mpr ⟨row, hrow, hvalid, rfl⟩)
      exact ⟨contact, hcontact, hsame.trans hmxid⟩
  least _ := least_of_listed

/-- A service whose texts are compared by their code points. -/
def plainService : Service where
  enableAdditionalFeatures := false
  hasUserDb := false
  serverName := "twake.app"
  localeCompare := compare

instance : Std.TransCmp plainService.localeCompare :=
  inferInstanceAs (Std.TransCmp (compare : String → String → Ordering))

/-- Bob twice, a row without a Matrix ID, and a contact without a name. -/
def mixedRows : List ContactRow :=
  [⟨some "3", "book", some "@bob:twake.app", some "Bobby", some 1⟩,
    ⟨some "1", "book", some "@bob:twake.app", some "Bob", some 1⟩,
    ⟨some "2", "book", none, some "Carol", some 1⟩,
    ⟨some "4", "book", some "@dan:twake.app", none, none⟩]

theorem mixedRows_lists :
    Lists plainService mixedRows
      (listAddressbookContacts plainService (.ok mixedRows)) :=
  listAddressbookContacts_lists plainService mixedRows

end Listing

end TwakeKickstart.TomServer.Addressbook
