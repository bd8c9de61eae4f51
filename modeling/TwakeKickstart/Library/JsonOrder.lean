import TwakeKickstart.Library.JsonSyntax

namespace TwakeKickstart.Library

/-! JSON values that differ in the order of their keys. -/

open JsonSyntax

inductive Reordered : JsValue → JsValue → Prop
  | refl (value : JsValue) : Reordered value value
  | trans {first second third : JsValue} (before : Reordered first second)
      (after : Reordered second third) : Reordered first third
  | fields {fields others : JsObject} (perm : fields.Perm others) :
      Reordered (.obj fields) (.obj others)
  | item {before after : List JsValue} {item other : JsValue}
      (inner : Reordered item other) :
      Reordered (.arr (before ++ item :: after)) (.arr (before ++ other :: after))
  | field {before after : JsObject} {key : String} {value other : JsValue}
      (inner : Reordered value other) :
      Reordered (.obj (before ++ (key, value) :: after))
        (.obj (before ++ (key, other) :: after))

theorem Reordered.items {items : List JsValue} {image : JsValue → JsValue}
    (all : ∀ item ∈ items, Reordered item (image item))
    (before : List JsValue) :
    Reordered (.arr (before ++ items)) (.arr (before ++ items.map image)) := by
  induction items generalizing before with
  | nil => exact .refl _
  | cons item rest ih =>
      rw [List.forall_mem_cons] at all
      have hrest := ih all.2 (before ++ [image item])
      rw [List.append_assoc, List.append_assoc] at hrest
      exact (Reordered.item all.1).trans hrest

theorem Reordered.values {fields : JsObject} {image : JsValue → JsValue}
    (all : ∀ field ∈ fields, Reordered field.2 (image field.2))
    (before : JsObject) :
    Reordered (.obj (before ++ fields))
      (.obj (before ++ fields.map fun field => (field.1, image field.2))) := by
  induction fields generalizing before with
  | nil => exact .refl _
  | cons field rest ih =>
      obtain ⟨key, value⟩ := field
      rw [List.forall_mem_cons] at all
      have hrest := ih all.2 (before ++ [(key, image value)])
      rw [List.append_assoc, List.append_assoc] at hrest
      exact (Reordered.field all.1).trans hrest

mutual
/-- The keys of every object in the value have the property. -/
def EveryObject (holds : List String → Prop) : JsValue → Prop
  | .arr items => EveryItem holds items
  | .obj fields => holds (fields.map Prod.fst) ∧ EveryField holds fields
  | _ => True

def EveryItem (holds : List String → Prop) : List JsValue → Prop
  | [] => True
  | item :: rest => EveryObject holds item ∧ EveryItem holds rest

def EveryField (holds : List String → Prop) : JsObject → Prop
  | [] => True
  | (_, value) :: rest => EveryObject holds value ∧ EveryField holds rest
end

section EveryObject

variable {holds other : List String → Prop} {items : List JsValue}
  {fields : JsObject}

theorem everyItem_iff :
    EveryItem holds items ↔ ∀ item ∈ items, EveryObject holds item := by
  induction items with
  | nil => simp [EveryItem]
  | cons item rest ih => rw [EveryItem, ih, List.forall_mem_cons]

theorem everyField_iff :
    EveryField holds fields ↔ ∀ field ∈ fields, EveryObject holds field.2 := by
  induction fields with
  | nil => simp [EveryField]
  | cons field rest ih => rw [EveryField, ih, List.forall_mem_cons]

theorem everyObject_arr_iff : EveryObject holds (.arr items) ↔
    ∀ item ∈ items, EveryObject holds item := by
  rw [EveryObject, everyItem_iff]

theorem everyObject_obj_iff : EveryObject holds (.obj fields) ↔
    holds (fields.map Prod.fst) ∧
      ∀ field ∈ fields, EveryObject holds field.2 := by
  rw [EveryObject, everyField_iff]

theorem everyObject_and_iff {value : JsValue} (h : IsJson value) :
    EveryObject (fun keys => holds keys ∧ other keys) value ↔
      EveryObject holds value ∧ EveryObject other value := by
  induction h with
  | arr _ ih =>
      simp only [everyObject_arr_iff]
      constructor
      · intro hall
        exact ⟨fun item hitem => ((ih item hitem).mp (hall item hitem)).1,
          fun item hitem => ((ih item hitem).mp (hall item hitem)).2⟩
      · intro hall item hitem
        exact (ih item hitem).mpr ⟨hall.1 item hitem, hall.2 item hitem⟩
  | obj _ _ ih =>
      simp only [everyObject_obj_iff]
      constructor
      · intro hall
        exact ⟨⟨hall.1.1, fun field hfield =>
            ((ih field hfield).mp (hall.2 field hfield)).1⟩,
          hall.1.2, fun field hfield =>
            ((ih field hfield).mp (hall.2 field hfield)).2⟩
      · intro hall
        exact ⟨⟨hall.1.1, hall.2.1⟩, fun field hfield => (ih field hfield).mpr
          ⟨hall.1.2 field hfield, hall.2.2 field hfield⟩⟩
  | _ => simp [EveryObject]

/-- What does not depend on the order of the keys is kept. -/
theorem everyObject_of_reordered {value reordered : JsValue}
    (stable : ∀ {keys others : List String}, keys.Perm others →
      (holds keys ↔ holds others)) (h : Reordered value reordered) :
    EveryObject holds value ↔ EveryObject holds reordered := by
  induction h with
  | refl value => exact Iff.rfl
  | trans _ _ ihFirst ihSecond => exact ihFirst.trans ihSecond
  | fields perm =>
      simp only [everyObject_obj_iff]
      exact and_congr (stable (perm.map Prod.fst))
        (forall_congr' fun field => imp_congr perm.mem_iff Iff.rfl)
  | item _ ih =>
      simp only [everyObject_arr_iff, List.forall_mem_append,
        List.forall_mem_cons, ih]
  | field _ ih =>
      simp only [everyObject_obj_iff, List.forall_mem_append,
        List.forall_mem_cons, ih, List.map_append, List.map_cons]

end EveryObject

theorem isJson_arr_iff {items : List JsValue} :
    IsJson (.arr items) ↔ ∀ item ∈ items, IsJson item := by
  constructor
  · intro h
    cases h with
    | arr all => exact all
  · exact .arr

theorem isJson_obj_iff {fields : JsObject} : IsJson (.obj fields) ↔
    (fields.map Prod.fst).Nodup ∧ ∀ field ∈ fields, IsJson field.2 := by
  constructor
  · intro h
    cases h with
    | obj distinct all => exact ⟨distinct, all⟩
  · intro h
    exact .obj h.1 h.2

theorem isJson_of_reordered {value reordered : JsValue}
    (h : Reordered value reordered) (isJson : IsJson value) :
    IsJson reordered := by
  induction h with
  | refl value => exact isJson
  | trans _ _ ihFirst ihSecond => exact ihSecond (ihFirst isJson)
  | fields perm =>
      rw [isJson_obj_iff] at isJson ⊢
      exact ⟨(perm.map Prod.fst).nodup_iff.mp isJson.1,
        fun field hfield => isJson.2 field (perm.mem_iff.mpr hfield)⟩
  | item _ ih =>
      simp only [isJson_arr_iff, List.forall_mem_append,
        List.forall_mem_cons] at isJson ⊢
      exact ⟨isJson.1, ih isJson.2.1, isJson.2.2⟩
  | field _ ih =>
      simp only [isJson_obj_iff, List.forall_mem_append, List.forall_mem_cons,
        List.map_append, List.map_cons] at isJson ⊢
      exact ⟨isJson.1, isJson.2.1, ih isJson.2.2.1, isJson.2.2.2⟩

end TwakeKickstart.Library
