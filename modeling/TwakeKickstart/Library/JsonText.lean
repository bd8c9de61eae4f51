import TwakeKickstart.Library.Js

namespace TwakeKickstart.Library

/-! The order of texts in JavaScript, and `JSON.stringify`. -/

/-- The UTF-16 code units, by which texts are ordered. -/
def codeUnits (text : String) : List Nat :=
  text.toList.flatMap fun c =>
    if c.toNat < 0x10000 then [c.toNat]
    else
      [0xD800 + (c.toNat - 0x10000) / 0x400,
        0xDC00 + (c.toNat - 0x10000) % 0x400]

def unitsLe : List Nat → List Nat → Bool
  | [], _ => true
  | _ :: _, [] => false
  | unit :: units, other :: others =>
      decide (unit < other) || (unit == other && unitsLe units others)

theorem unitsLe_trans {a b c : List Nat} (hab : unitsLe a b = true)
    (hbc : unitsLe b c = true) : unitsLe a c = true := by
  induction a generalizing b c with
  | nil => rfl
  | cons unit units ih =>
      cases b with
      | nil => cases hab
      | cons other others =>
          cases c with
          | nil => cases hbc
          | cons last lasts =>
              simp only [unitsLe, Bool.or_eq_true, Bool.and_eq_true,
                decide_eq_true_eq, beq_iff_eq] at hab hbc ⊢
              rcases hab with hlt | ⟨rfl, hunits⟩
              · rcases hbc with hother | ⟨rfl, _⟩
                · exact .inl (Nat.lt_trans hlt hother)
                · exact .inl hlt
              · rcases hbc with hother | ⟨rfl, hothers⟩
                · exact .inl hother
                · exact .inr ⟨rfl, ih hunits hothers⟩

theorem unitsLe_total (a b : List Nat) :
    unitsLe a b = true ∨ unitsLe b a = true := by
  induction a generalizing b with
  | nil => exact .inl rfl
  | cons unit units ih =>
      cases b with
      | nil => exact .inr rfl
      | cons other others =>
          simp only [unitsLe, Bool.or_eq_true, Bool.and_eq_true,
            decide_eq_true_eq, beq_iff_eq]
          have hunits := ih others
          rcases Nat.lt_trichotomy unit other with hlt | rfl | hlt
          · exact .inl (.inl hlt)
          · simpa using hunits
          · exact .inr (.inl hlt)

/-- The number that a key stands for when it is an array index. -/
def arrayIndex (key : String) : Option Nat :=
  if key.toList.all Char.isDigit then
    some (key.toList.foldl (fun n c => n * 10 + (c.toNat - 48)) 0) |>.filter
      fun n => toString n == key && n < 4294967295
  else none

/-- The order in which the fields of an object are enumerated: the array
indices first. -/
def enumerated {α : Type} (fields : List (String × α)) : List (String × α) :=
  (fields.filter fun field => (arrayIndex field.1).isSome).mergeSort
      (fun a b => (arrayIndex a.1).getD 0 ≤ (arrayIndex b.1).getD 0) ++
    fields.filter fun field => (arrayIndex field.1).isNone

def escaped (c : Char) : List Char :=
  if c = '"' ∨ c = '\\' then ['\\', c]
  else if c.toNat = 8 then ['\\', 'b']
  else if c.toNat = 9 then ['\\', 't']
  else if c.toNat = 10 then ['\\', 'n']
  else if c.toNat = 12 then ['\\', 'f']
  else if c.toNat = 13 then ['\\', 'r']
  else if c.toNat < 32 then
    ['\\', 'u', '0', '0', Nat.digitChar (c.toNat / 16),
      Nat.digitChar (c.toNat % 16)]
  else [c]

def quoted (text : String) : String :=
  String.ofList ('"' :: text.toList.flatMap escaped ++ ['"'])

mutual
/-- An item that is undefined becomes `null`, and a field that is undefined is
left out. -/
def stringify : JsValue → String
  | .undefined => "null"
  | .null => "null"
  | .bool b => if b then "true" else "false"
  | .num n => toString n
  | .str s => quoted s
  | .arr items => "[" ++ ",".intercalate (stringifyItems items) ++ "]"
  | .obj fields =>
      "\x7b" ++ ",".intercalate ((enumerated (stringifyFields fields)).map
        fun field => quoted field.1 ++ ":" ++ field.2) ++ "\x7d"

def stringifyItems : List JsValue → List String
  | [] => []
  | item :: rest => stringify item :: stringifyItems rest

def stringifyFields : List (String × JsValue) → List (String × String)
  | [] => []
  | (_, .undefined) :: rest => stringifyFields rest
  | (key, value) :: rest => (key, stringify value) :: stringifyFields rest
end

/-- The bytes of a text in UTF-8. -/
def utf8 (text : String) : List UInt8 :=
  text.toList.flatMap String.utf8EncodeChar

theorem utf8_ne_nil {text : String} (h : text ≠ "") : utf8 text ≠ [] := by
  unfold utf8
  cases hchars : text.toList with
  | nil => exact absurd (String.toList_eq_nil_iff.mp hchars) h
  | cons c rest =>
      rw [List.flatMap_cons]
      intro hnil
      exact String.utf8EncodeChar_ne_nil (List.append_eq_nil_iff.mp hnil).1

theorem stringify_obj_ne_empty (fields : JsObject) :
    stringify (.obj fields) ≠ "" := by
  intro h
  have hchars := congrArg String.toList h
  rw [stringify, String.toList_append, String.toList_append] at hchars
  cases hchars

end TwakeKickstart.Library
