import Mathlib.Data.List.Basic

namespace TwakeKickstart.Library

/-! Values of a JavaScript program that arrive from outside: decoded JSON,
parsed query strings and the scalars a database driver returns. -/

inductive JsValue where
  | undefined
  | null
  | bool (b : Bool)
  | num (n : Int)
  | str (s : String)
  | arr (items : List JsValue)
  | obj (fields : List (String × JsValue))

namespace JsValue

mutual
/-- The method call `v.toString()`; `none` when it throws.  An own field
`toString` of decoded data is never callable, so it makes the call throw. -/
def text? : JsValue → Option String
  | .undefined => none
  | .null => none
  | .bool b => some (if b then "true" else "false")
  | .num n => some (toString n)
  | .str s => some s
  | .arr items => (itemTexts? items).map (",".intercalate)
  | .obj fields =>
      if fields.any (·.1 == "toString") then none
      else some "[object Object]"

def itemTexts? : List JsValue → Option (List String)
  | [] => some []
  | .undefined :: rest => (itemTexts? rest).map ("" :: ·)
  | .null :: rest => (itemTexts? rest).map ("" :: ·)
  | item :: rest =>
      (text? item).bind fun head => (itemTexts? rest).map (head :: ·)
end

def isNullish : JsValue → Bool
  | .undefined => true
  | .null => true
  | _ => false

/-- A condition on the value takes its first branch. -/
def truthy : JsValue → Bool
  | .undefined => false
  | .null => false
  | .bool b => b
  | .num n => n != 0
  | .str s => s != ""
  | .arr _ => true
  | .obj _ => true

def strings (values : List String) : JsValue :=
  .arr (values.map .str)

/-- The strict comparison `===`.  Two arrays or objects that were decoded
separately are different references. -/
def strictEq : JsValue → JsValue → Bool
  | .undefined, .undefined => true
  | .null, .null => true
  | .bool a, .bool b => a == b
  | .num a, .num b => a == b
  | .str a, .str b => a == b
  | _, _ => false

/-- The read `v.name`; `none` when it throws. -/
def property (name : String) : JsValue → Option JsValue
  | .undefined => none
  | .null => none
  | .obj fields => some ((fields.lookup name).getD .undefined)
  | _ => some .undefined

/-- The test `v.length != null` on decoded data. -/
def hasLength : JsValue → Bool
  | .str _ => true
  | .arr _ => true
  | .obj fields => !((fields.lookup "length").getD .undefined).isNullish
  | _ => false

theorem isNullish_of_hasLength {value : JsValue}
    (h : value.hasLength = true) : value.isNullish = false := by
  cases value with
  | undefined => cases h
  | null => cases h
  | bool b => rfl
  | num n => rfl
  | str s => rfl
  | arr items => rfl
  | obj fields => rfl

@[simp] theorem text?_str (s : String) : (JsValue.str s).text? = some s := by
  simp [text?]

@[simp] theorem itemTexts?_str (values : List String) :
    itemTexts? (values.map .str) = some values := by
  induction values with
  | nil => simp [itemTexts?]
  | cons head tail ih => simp [itemTexts?, ih]

@[simp] theorem text?_strings (values : List String) :
    (strings values).text? = some (",".intercalate values) := by
  simp [strings, text?]

@[simp] theorem strictEq_str (a b : String) :
    (JsValue.str a).strictEq (.str b) = true ↔ a = b := by
  simp [strictEq]

theorem intercalate_eq_empty_iff (values : List String) :
    ",".intercalate values = "" ↔ values = [] ∨ values = [""] := by
  match values with
  | [] => simp
  | [head] => simp
  | first :: second :: rest =>
      simp only [String.intercalate_cons_cons, reduceCtorEq, List.cons.injEq,
        and_false, or_self, iff_false]
      intro h
      have hlist := congrArg String.toList h
      simp [String.toList_append] at hlist

end JsValue

/-- The own fields of an object, in insertion order. -/
abbrev JsObject := List (String × JsValue)

namespace JsObject

def put : JsObject → String → JsValue → JsObject
  | [], key, value => [(key, value)]
  | (other, old) :: rest, key, value =>
      if other = key then (key, value) :: rest
      else (other, old) :: put rest key value

/-- The assignment `object[key] = value`.  On an object literal the key
`__proto__` reaches the prototype accessor, which adds no own field. -/
def assign (object : JsObject) (key : String) (value : JsValue) : JsObject :=
  if key = "__proto__" then object else object.put key value

theorem lookup_put (object : JsObject) (key name : String) (value : JsValue) :
    (object.put key value).lookup name =
      if name = key then some value else object.lookup name := by
  induction object with
  | nil =>
      by_cases h : name = key
      · simp [put, h]
      · simp [put, List.lookup_cons, h, beq_false_of_ne h]
  | cons entry rest ih =>
      obtain ⟨other, old⟩ := entry
      by_cases hother : other = key
      · subst other
        by_cases h : name = key
        · simp [put, h]
        · simp [put, List.lookup_cons, h, beq_false_of_ne h]
      · by_cases h : name = other
        · subst name
          simp [put, hother]
        · simp [put, List.lookup_cons, hother, beq_false_of_ne h, ih]

theorem lookup_assign (object : JsObject) (key name : String)
    (value : JsValue) :
    (object.assign key value).lookup name =
      if name = key ∧ key ≠ "__proto__" then some value
      else object.lookup name := by
  unfold assign
  by_cases hproto : key = "__proto__"
  · simp [hproto]
  · simp [hproto, lookup_put]

end JsObject

theorem mem_of_lookup {α β : Type} [BEq α] [LawfulBEq α] {key : α}
    {value : β} {entries : List (α × β)}
    (found : entries.lookup key = some value) : (key, value) ∈ entries := by
  obtain ⟨before, after, rfl, -⟩ := List.lookup_eq_some_iff.mp found
  exact List.mem_append_right _ List.mem_cons_self

theorem num_text_ne_empty (n : Int) : toString n ≠ "" := by
  cases n with
  | ofNat value => exact Nat.repr_ne_empty
  | negSucc value =>
      intro hempty
      have hlist := congrArg String.toList hempty
      change ("-" ++ Nat.repr (value + 1)).toList = [] at hlist
      rw [String.toList_append] at hlist
      cases hlist

end TwakeKickstart.Library
