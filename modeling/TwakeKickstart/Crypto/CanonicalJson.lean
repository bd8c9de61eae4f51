import Mathlib.Data.List.Nodup
import TwakeKickstart.Crypto.SignJson
import TwakeKickstart.Library.JsonOrder

namespace TwakeKickstart.Crypto

open Library JsonSyntax

/-! The text that is signed, and the canonical form. -/

/-- The text has the value, with its keys in increasing order at every level,
and every other order of the keys has the same text. -/
structure IsCanonical (value : JsValue) : Prop where
  read : ∃ result, parse (canonicalJson value) = some result ∧
    Reordered value result ∧
    EveryObject (fun keys => keys.Pairwise (· < ·)) result
  stable : ∀ other, Reordered value other →
    canonicalJson other = canonicalJson value

/-- Keys that are enumerated in their order once they are sorted by their code
units. -/
def InCodePointOrder (keys : List String) : Prop :=
  ∀ a ∈ keys, ∀ b ∈ keys, a < b → precedes a b = true

def NoPrototype (keys : List String) : Prop := "__proto__" ∉ keys

instance (keys : List String) : Decidable (InCodePointOrder keys) :=
  inferInstanceAs (Decidable (∀ a ∈ keys, ∀ b ∈ keys,
    a < b → precedes a b = true))

instance (keys : List String) : Decidable (NoPrototype keys) :=
  inferInstanceAs (Decidable (¬ "__proto__" ∈ keys))

/-! The fields in the order of the text. -/

def unitsOrder (a b : String × JsValue) : Bool :=
  unitsLe (codeUnits a.1) (codeUnits b.1)

def sortedFields (fields : JsObject) : JsObject :=
  (fields.mergeSort unitsOrder).filter (·.1 ≠ "__proto__")

def emitted (fields : JsObject) : JsObject := enumerated (sortedFields fields)

theorem pairwise_unitsOrder (fields : JsObject) :
    (fields.mergeSort unitsOrder).Pairwise
      fun a b => unitsOrder a b = true := by
  apply List.pairwise_mergeSort
  · intro a b c hab hbc
    exact unitsLe_trans hab hbc
  · intro a b
    rw [Bool.or_eq_true]
    exact unitsLe_total _ _

theorem put_of_not_mem {object : JsObject} {key : String}
    (h : key ∉ object.map Prod.fst) (value : JsValue) :
    object.put key value = object ++ [(key, value)] := by
  induction object with
  | nil => rfl
  | cons field rest ih =>
      obtain ⟨other, old⟩ := field
      rw [List.map_cons, List.mem_cons, not_or] at h
      rw [JsObject.put, if_neg (fun hother => h.1 hother.symm), ih h.2]
      rfl

theorem foldl_assign {object entries : JsObject}
    (distinct : ((object ++ entries).map Prod.fst).Nodup) :
    entries.foldl (fun sorted entry => sorted.assign entry.1 entry.2) object =
      object ++ entries.filter (·.1 ≠ "__proto__") := by
  induction entries generalizing object with
  | nil => rw [List.foldl_nil, List.filter_nil, List.append_nil]
  | cons entry rest ih =>
      obtain ⟨key, value⟩ := entry
      rw [List.foldl_cons, JsObject.assign]
      by_cases hproto : key = "__proto__"
      · have hrest : ((object ++ rest).map Prod.fst).Nodup := by
          refine distinct.sublist ?_
          exact ((List.sublist_cons_self _ rest).append_left object).map _
        rw [if_pos hproto, ih hrest, List.filter_cons_of_neg]
        simpa using hproto
      · have hkey : key ∉ object.map Prod.fst := by
          rw [List.map_append, List.nodup_append] at distinct
          intro hmem
          exact distinct.2.2 key hmem key (by simp) rfl
        have hmoved : (((object ++ [(key, value)]) ++ rest).map
            Prod.fst).Nodup := by
          rw [List.append_assoc]
          exact distinct
        rw [if_neg hproto, put_of_not_mem hkey, ih hmoved,
          List.filter_cons_of_pos (by simpa using hproto), List.append_assoc]
        rfl

theorem sortedKeys_eq {fields : JsObject}
    (distinct : (fields.map Prod.fst).Nodup) :
    sortedKeys fields = sortedFields fields := by
  have hsorted := ((List.mergeSort_perm fields unitsOrder).map
    Prod.fst).nodup_iff.mpr distinct
  exact (foldl_assign hsorted).trans (List.nil_append _)

theorem sortedFields_map (image : JsValue → JsValue) (fields : JsObject) :
    sortedFields (fields.map fun field => (field.1, image field.2)) =
      (sortedFields fields).map fun field => (field.1, image field.2) := by
  have hsort : (fields.map fun field =>
        (field.1, image field.2)).mergeSort unitsOrder =
      (fields.mergeSort unitsOrder).map fun field =>
        (field.1, image field.2) := by
    symm
    apply List.map_mergeSort
    intro a _ b _
    rfl
  rw [sortedFields, hsort, List.filter_map]
  rfl

theorem sortedFields_perm {fields others : JsObject}
    (distinct : (fields.map Prod.fst).Nodup) (perm : fields.Perm others) :
    sortedFields fields = sortedFields others := by
  have hsame : fields.mergeSort unitsOrder = others.mergeSort unitsOrder := by
    have hleft := List.mergeSort_perm fields unitsOrder
    have hright := List.mergeSort_perm others unitsOrder
    refine List.Perm.eq_of_pairwise ?_ (pairwise_unitsOrder fields)
      (pairwise_unitsOrder others) (hleft.trans (perm.trans hright.symm))
    intro a b ha hb hab hba
    have hkey := codeUnits_injective (unitsLe_antisymm hab hba)
    exact List.inj_on_of_nodup_map distinct (hleft.mem_iff.mp ha)
      (perm.mem_iff.mpr (hright.mem_iff.mp hb)) hkey
  rw [sortedFields, hsame, sortedFields]

theorem perm_sortedFields (fields : JsObject) :
    (sortedFields fields).Perm (fields.filter (·.1 ≠ "__proto__")) :=
  (List.mergeSort_perm fields unitsOrder).filter _

theorem pairwise_emitted (fields : JsObject) :
    (emitted fields).Pairwise fun a b => precedes a.1 b.1 = true :=
  pairwise_enumerated ((pairwise_unitsOrder fields).filter _)

theorem mem_emitted {fields : JsObject} {field : String × JsValue} :
    field ∈ emitted fields ↔ field ∈ fields ∧ field.1 ≠ "__proto__" := by
  rw [emitted, (enumerated_perm _).mem_iff,
    (perm_sortedFields fields).mem_iff, List.mem_filter, decide_eq_true_eq]

theorem emitted_perm {fields : JsObject}
    (h : NoPrototype (fields.map Prod.fst)) : (emitted fields).Perm fields := by
  refine (enumerated_perm _).trans ((perm_sortedFields fields).trans ?_)
  rw [List.filter_eq_self.mpr]
  intro field hfield
  rw [decide_eq_true_eq]
  intro hproto
  apply h
  rw [← hproto]
  exact List.mem_map_of_mem hfield

/-! What is read back. -/

theorem canonicalItems_eq_map (items : List JsValue) :
    canonicalItems items = items.map canonical := by
  induction items with
  | nil => rfl
  | cons item rest ih => rw [canonicalItems, ih, List.map_cons]

theorem canonicalFields_eq_map (fields : JsObject) : canonicalFields fields =
    fields.map fun field => (field.1, canonical field.2) := by
  induction fields with
  | nil => rfl
  | cons field rest ih => rw [canonicalFields, ih, List.map_cons]

theorem canonical_arr (items : List JsValue) :
    canonical (.arr items) = .arr (items.map canonical) := by
  rw [canonical, canonicalItems_eq_map]

theorem canonical_obj {fields : JsObject}
    (distinct : (fields.map Prod.fst).Nodup) : canonical (.obj fields) =
      .obj ((sortedFields fields).map fun field =>
        (field.1, canonical field.2)) := by
  rw [canonical, canonicalFields_eq_map, sortedKeys_eq, sortedFields_map]
  rw [List.map_map]
  exact distinct

theorem isJson_canonical {value : JsValue} (h : IsJson value) :
    IsJson (canonical value) := by
  induction h with
  | null => exact .null
  | bool b => exact .bool b
  | num n => exact .num n
  | str s => exact .str s
  | arr _ ih =>
      rw [canonical_arr]
      exact .arr (List.forall_mem_map.mpr ih)
  | obj distinct _ ih =>
      rename_i fields _
      rw [canonical_obj distinct]
      refine .obj ?_ (List.forall_mem_map.mpr ?_)
      · rw [List.map_map]
        have hkeys := (perm_sortedFields fields).map Prod.fst
        exact hkeys.nodup_iff.mpr
          (distinct.sublist ((List.filter_sublist).map Prod.fst))
      · intro field hfield
        have hmem := (perm_sortedFields fields).mem_iff.mp hfield
        exact ih field (List.mem_filter.mp hmem).1

/-- The value that is read back. -/
def written (value : JsValue) : JsValue := shown (canonical value)

theorem parse_canonicalJson {value : JsValue} (h : IsJson value) :
    parse (canonicalJson value) = some (written value) :=
  parse_stringify (isJson_canonical h)

theorem written_arr (items : List JsValue) :
    written (.arr items) = .arr (items.map written) := by
  rw [written, canonical_arr, shown_arr, List.map_map]
  rfl

theorem written_obj {fields : JsObject}
    (distinct : (fields.map Prod.fst).Nodup) : written (.obj fields) =
      .obj ((emitted fields).map fun field => (field.1, written field.2)) := by
  rw [written, canonical_obj distinct, shown_obj,
    enumerated_map (fun field => canonical field.2), List.map_map]
  rfl

theorem canonical_of_reordered {value other : JsValue} (isJson : IsJson value)
    (h : Reordered value other) : canonical other = canonical value := by
  induction h with
  | refl value => rfl
  | trans before _ ihFirst ihSecond =>
      rw [ihSecond (isJson_of_reordered before isJson), ihFirst isJson]
  | fields perm =>
      have hdistinct := (isJson_obj_iff.mp isJson).1
      rw [canonical_obj hdistinct,
        canonical_obj ((perm.map Prod.fst).nodup_iff.mp hdistinct),
        sortedFields_perm hdistinct perm]
  | item _ ih =>
      rename_i before after item other _
      have hitem := isJson_arr_iff.mp isJson item (by simp)
      rw [canonical_arr, canonical_arr]
      simp only [List.map_append, List.map_cons, ih hitem]
  | field _ ih =>
      rename_i before after key item other _
      have hitem := (isJson_obj_iff.mp isJson).2 (key, item) (by simp)
      rw [canonical, canonical, canonicalFields_eq_map, canonicalFields_eq_map]
      simp only [List.map_append, List.map_cons, ih hitem]

theorem noPrototype_written {value : JsValue} (h : IsJson value) :
    EveryObject NoPrototype (written value) := by
  induction h with
  | arr _ ih =>
      rw [written_arr, everyObject_arr_iff]
      exact List.forall_mem_map.mpr ih
  | obj distinct _ ih =>
      rw [written_obj distinct, everyObject_obj_iff]
      refine ⟨?_, List.forall_mem_map.mpr ?_⟩
      · rw [NoPrototype, List.map_map]
        intro hproto
        obtain ⟨field, hfield, hkey⟩ := List.mem_map.mp hproto
        exact (mem_emitted.mp hfield).2 hkey
      · intro field hfield
        exact ih field (mem_emitted.mp hfield).1
  | _ => trivial

theorem reordered_written {value : JsValue} (isJson : IsJson value)
    (h : EveryObject NoPrototype value) : Reordered value (written value) := by
  induction isJson with
  | arr _ ih =>
      rw [written_arr]
      rw [everyObject_arr_iff] at h
      exact Reordered.items (fun item hitem => ih item hitem (h item hitem)) []
  | obj distinct _ ih =>
      rename_i fields _
      rw [written_obj distinct]
      rw [everyObject_obj_iff] at h
      have hvalues := @Reordered.values fields written
        (fun field hfield => ih field hfield (h.2 field hfield)) []
      exact hvalues.trans (.fields ((emitted_perm h.1).symm.map _))
  | _ => exact .refl _

/-- The keys of the text are in order just when the enumeration agrees with the
order of the characters. -/
theorem everyObject_written_iff {value : JsValue} (isJson : IsJson value)
    (h : EveryObject NoPrototype value) :
    EveryObject (fun keys => keys.Pairwise (· < ·)) (written value) ↔
      EveryObject InCodePointOrder value := by
  induction isJson with
  | arr _ ih =>
      rw [everyObject_arr_iff] at h
      rw [written_arr, everyObject_arr_iff, everyObject_arr_iff,
        List.forall_mem_map]
      exact forall₂_congr fun item hitem => ih item hitem (h item hitem)
  | obj distinct _ ih =>
      rename_i fields _
      rw [everyObject_obj_iff] at h
      have hperm := emitted_perm h.1
      have hkeys := hperm.map Prod.fst
      have hpairwise : ((emitted fields).map Prod.fst).Pairwise
          fun a b => precedes a b = true :=
        List.pairwise_map.mpr (pairwise_emitted fields)
      have hhere := pairwise_lt_iff (fun a b => precedes_antisymm)
        (hkeys.nodup_iff.mpr distinct) hpairwise
      rw [written_obj distinct, everyObject_obj_iff, everyObject_obj_iff,
        List.map_map, List.forall_mem_map]
      refine and_congr ?_ ?_
      · refine hhere.trans ?_
        simp only [hkeys.mem_iff]
        exact Iff.rfl
      · constructor
        · intro hall field hfield
          exact (ih field hfield (h.2 field hfield)).mp
            (hall field (hperm.mem_iff.mpr hfield))
        · intro hall field hfield
          have hmem := hperm.mem_iff.mp hfield
          exact (ih field hmem (h.2 field hmem)).mpr (hall field hmem)
  | _ => exact iff_of_true trivial trivial

theorem noPrototype_of_isCanonical {value : JsValue} (isJson : IsJson value)
    (h : IsCanonical value) : EveryObject NoPrototype value := by
  obtain ⟨result, hresult, hreordered, _⟩ := h.read
  rw [parse_canonicalJson isJson, Option.some.injEq] at hresult
  rw [← hresult] at hreordered
  exact (everyObject_of_reordered
    (fun perm => not_congr perm.mem_iff) hreordered).mpr
    (noPrototype_written isJson)

theorem order_of_isCanonical {value : JsValue} (isJson : IsJson value)
    (h : IsCanonical value) : EveryObject InCodePointOrder value := by
  obtain ⟨result, hresult, _, hsorted⟩ := h.read
  rw [parse_canonicalJson isJson, Option.some.injEq] at hresult
  rw [← hresult] at hsorted
  exact (everyObject_written_iff isJson
    (noPrototype_of_isCanonical isJson h)).mp hsorted

/-- The text is canonical just when no object has the key `__proto__` and the
enumeration of its keys agrees with the order of their characters. -/
theorem isCanonical_iff {value : JsValue} (h : IsJson value) :
    IsCanonical value ↔ EveryObject (fun keys =>
      NoPrototype keys ∧ InCodePointOrder keys) value := by
  rw [everyObject_and_iff h]
  constructor
  · intro hcanonical
    exact ⟨noPrototype_of_isCanonical h hcanonical,
      order_of_isCanonical h hcanonical⟩
  · rintro ⟨hproto, horder⟩
    refine ⟨⟨written value, parse_canonicalJson h, reordered_written h hproto,
      (everyObject_written_iff h hproto).mpr horder⟩, ?_⟩
    intro other hother
    rw [canonicalJson, canonical_of_reordered h hother, canonicalJson]

def nestedKeys : JsValue :=
  .obj [("b", .obj [("y", .num 1), ("x", .arr [])]), ("a", .null)]

theorem isCanonical_nestedKeys : IsCanonical nestedKeys :=
  (isCanonical_iff (by
    simp [nestedKeys, isJson_obj_iff, isJson_arr_iff, IsJson.null,
      IsJson.num])).mpr (by
    rw [nestedKeys, EveryObject, EveryField, EveryObject, EveryField]
    refine ⟨⟨by decide, by decide⟩, ⟨⟨by decide, by decide⟩, ?_⟩, ?_⟩
    · simp [EveryField, EveryObject, EveryItem]
    · simp [EveryField, EveryObject])

def singleValues (keys : List String) : JsValue :=
  .obj (keys.map fun key => (key, .null))

theorem isJson_singleValues {keys : List String} (distinct : keys.Nodup) :
    IsJson (singleValues keys) := by
  refine .obj ?_ (List.forall_mem_map.mpr fun _ _ => .null)
  rw [List.map_map]
  exact (List.map_id keys).symm ▸ distinct

/-- Numbers come first and by their value, the prototype is no key, and a code
unit of a surrogate pair is less than others. -/
theorem not_isCanonical_keys :
    ¬ IsCanonical (singleValues ["9", "10"]) ∧
      ¬ IsCanonical (singleValues ["__proto__"]) ∧
      ¬ IsCanonical (singleValues ["\uff5e", String.singleton (Char.ofNat 0x1f600)]) := by
  refine ⟨?_, ?_, ?_⟩
  · intro h
    have horder := order_of_isCanonical (isJson_singleValues (by decide)) h
    rw [singleValues, everyObject_obj_iff] at horder
    exact absurd horder.1 (by decide)
  · intro h
    have hproto := noPrototype_of_isCanonical
      (isJson_singleValues (by decide)) h
    rw [singleValues, everyObject_obj_iff] at hproto
    exact absurd hproto.1 (by decide)
  · intro h
    have horder := order_of_isCanonical (isJson_singleValues (by decide)) h
    rw [singleValues, everyObject_obj_iff] at horder
    exact absurd horder.1 (by decide)

end TwakeKickstart.Crypto
