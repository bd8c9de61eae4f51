import Mathlib.Data.Finset.Card
import Mathlib.Data.List.Infix
import TwakeKickstart.Library.Traversal

namespace TwakeKickstart.Library

/-! Objects that are reached by reference, and the JSON texts that are made of
them. -/

inductive Json where
  | null
  | bool (b : Bool)
  | num (n : Int)
  | str (s : String)
  | arr (items : List Json)
  | obj (fields : List (String × Json))

/-! The own fields of an object, in insertion order. -/

namespace Fields

variable {α β : Type}

def put : List (String × α) → String → α → List (String × α)
  | [], key, value => [(key, value)]
  | (other, old) :: rest, key, value =>
      if other = key then (key, value) :: rest
      else (other, old) :: put rest key value

def remove (fields : List (String × α)) (key : String) : List (String × α) :=
  fields.filter fun field => field.1 != key

theorem lookup_put (fields : List (String × α)) (key name : String)
    (value : α) :
    (put fields key value).lookup name =
      if name = key then some value else fields.lookup name := by
  induction fields with
  | nil =>
      by_cases h : name = key
      · simp [put, h]
      · simp [put, List.lookup_cons, h, beq_false_of_ne h]
  | cons field rest ih =>
      obtain ⟨other, old⟩ := field
      by_cases hother : other = key
      · subst other
        by_cases h : name = key
        · simp [put, h]
        · simp [put, List.lookup_cons, h, beq_false_of_ne h]
      · by_cases h : name = other
        · subst name
          simp [put, hother]
        · simp [put, List.lookup_cons, hother, beq_false_of_ne h, ih]

theorem lookup_remove (fields : List (String × α)) (key name : String) :
    (remove fields key).lookup name =
      if name = key then none else fields.lookup name := by
  induction fields with
  | nil => simp [remove]
  | cons field rest ih =>
      obtain ⟨other, old⟩ := field
      unfold remove at ih ⊢
      by_cases hother : other = key
      · subst other
        rw [List.filter_cons_of_neg (by simp), ih, List.lookup_cons]
        by_cases h : name = key
        · rw [if_pos h, if_pos h]
        · rw [if_neg h, if_neg h, beq_false_of_ne h]
      · rw [List.filter_cons_of_pos (by simp [hother]), List.lookup_cons,
          List.lookup_cons, ih]
        by_cases h : name = other
        · subst name
          simp [hother]
        · rw [beq_false_of_ne h]

theorem lookup_eq_none_iff {fields : List (String × α)} {name : String} :
    fields.lookup name = none ↔ name ∉ fields.map Prod.fst := by
  rw [List.lookup_eq_none_iff, List.mem_map]
  constructor
  · rintro h ⟨field, hfield, rfl⟩
    simpa using h field hfield
  · intro h field hfield
    have hne : name ≠ field.1 := fun hsame => h ⟨field, hfield, hsame.symm⟩
    simpa using hne

theorem lookup_foldl_put {value : String → α} (names : List String)
    (fields : List (String × α)) (name : String) :
    (names.foldl (fun fields key => put fields key (value key))
        fields).lookup name =
      if name ∈ names then some (value name) else fields.lookup name := by
  induction names generalizing fields with
  | nil => simp
  | cons key rest ih =>
      rw [List.foldl_cons, ih, lookup_put]
      by_cases hrest : name ∈ rest
      · simp [hrest]
      · by_cases hsame : name = key
        · subst hsame
          simp [hrest]
        · simp [hrest, hsame]

/-- Fields of the same names, with values that are related. -/
def Rel (R : α → β → Prop) (fields : List (String × α))
    (others : List (String × β)) : Prop :=
  List.Forall₂ (fun field other => field.1 = other.1 ∧ R field.2 other.2)
    fields others

variable {R : α → β → Prop} {fields : List (String × α)}
  {others : List (String × β)}

theorem Rel.imp {S : α → β → Prop} (h : Rel R fields others)
    (weaker : ∀ value other, R value other → S value other) :
    Rel S fields others :=
  List.Forall₂.imp (fun _ _ h => ⟨h.1, weaker _ _ h.2⟩) h

theorem Rel.put (h : Rel R fields others) (key : String) {value : α}
    {other : β} (related : R value other) :
    Rel R (put fields key value) (put others key other) := by
  induction h with
  | nil => exact .cons ⟨rfl, related⟩ .nil
  | @cons field pair rest others hhead hrest ih =>
      obtain ⟨name, old⟩ := field
      obtain ⟨other, older⟩ := pair
      obtain ⟨rfl, hold⟩ := hhead
      dsimp only at hold
      unfold Fields.put
      split
      · exact .cons ⟨rfl, related⟩ hrest
      · exact .cons ⟨rfl, hold⟩ ih

theorem Rel.remove (h : Rel R fields others) (key : String) :
    Rel R (remove fields key) (remove others key) := by
  induction h with
  | nil => exact .nil
  | @cons field pair rest others hhead hrest ih =>
      unfold Fields.remove at ih ⊢
      rw [List.filter_cons, List.filter_cons, ← hhead.1]
      split
      · exact .cons hhead ih
      · exact ih

theorem Rel.names (h : Rel R fields others) :
    fields.map Prod.fst = others.map Prod.fst := by
  induction h with
  | nil => rfl
  | cons hhead _ ih => rw [List.map_cons, List.map_cons, hhead.1, ih]

theorem Rel.lookup (h : Rel R fields others) (name : String) :
    Option.Rel R (fields.lookup name) (others.lookup name) := by
  induction h with
  | nil => exact .none
  | @cons field pair rest others hhead hrest ih =>
      obtain ⟨key, value⟩ := field
      obtain ⟨other, older⟩ := pair
      obtain ⟨hsame, hvalue⟩ := hhead
      dsimp only at hsame hvalue
      subst hsame
      rw [List.lookup_cons, List.lookup_cons]
      cases name == key with
      | true => exact .some hvalue
      | false => exact ih

theorem Rel.exists_lookup (h : Rel R fields others) {name : String}
    {other : β} (found : others.lookup name = some other) :
    ∃ value, fields.lookup name = some value ∧ R value other := by
  have hrel := h.lookup name
  rw [found] at hrel
  cases hlookup : fields.lookup name with
  | none =>
      rw [hlookup] at hrel
      cases hrel
  | some value =>
      rw [hlookup] at hrel
      cases hrel with
      | some hvalue => exact ⟨value, rfl, hvalue⟩

theorem Rel.lookup_none (h : Rel R fields others) {name : String}
    (missing : others.lookup name = none) : fields.lookup name = none := by
  rw [lookup_eq_none_iff] at missing ⊢
  rw [h.names]
  exact missing

end Fields

/-! The heap. -/

namespace Heap

inductive Value where
  | null
  | bool (b : Bool)
  | num (n : Int)
  | str (s : String)
  | ref (address : Nat)
  deriving DecidableEq

inductive Cell where
  | array (items : List Value)
  | object (fields : List (String × Value))

def Value.truthy : Value → Bool
  | .null => false
  | .bool b => b
  | .num n => n != 0
  | .str s => s != ""
  | .ref _ => true

end Heap

structure Heap where
  cells : List Heap.Cell

namespace Heap

def cell? (heap : Heap) : Value → Option Cell
  | .ref address => heap.cells[address]?
  | _ => none

/-- An array or object literal. -/
def new (heap : Heap) (cell : Cell) : Value × Heap :=
  (.ref heap.cells.length, ⟨heap.cells ++ [cell]⟩)

/-- `target.key`, when it is an own field. -/
def get? (heap : Heap) (target : Value) (key : String) : Option Value :=
  match heap.cell? target with
  | some (.object fields) => fields.lookup key
  | _ => none

def modify (heap : Heap)
    (change : List (String × Value) → List (String × Value)) :
    Value → Heap
  | .ref address =>
      match heap.cells[address]? with
      | some (.object fields) =>
          ⟨heap.cells.set address (.object (change fields))⟩
      | _ => heap
  | _ => heap

/-- `target.key = value` -/
def set (heap : Heap) (target : Value) (key : String) (value : Value) : Heap :=
  heap.modify (Fields.put · key value) target

/-- `delete target.key` -/
def delete (heap : Heap) (target : Value) (key : String) : Heap :=
  heap.modify (Fields.remove · key) target

/-- What a value is, as far as `fuel` references lead. -/
def read (heap : Heap) : (fuel : Nat) → Value → Option Json
  | _, .null => some .null
  | _, .bool b => some (.bool b)
  | _, .num n => some (.num n)
  | _, .str s => some (.str s)
  | 0, .ref _ => none
  | fuel + 1, .ref address =>
      match heap.cells[address]? with
      | none => none
      | some (.array items) => (items.mapM (read heap fuel)).map .arr
      | some (.object fields) =>
          (fields.mapM fun field : String × Value =>
            (read heap fuel field.2).map (field.1, ·)).map .obj

/-- `JSON.stringify(value)`; `none` when it throws.  No path without a cycle is
longer than the heap. -/
def stringify (heap : Heap) (value : Value) : Option Json :=
  heap.read heap.cells.length value

mutual
/-- `JSON.parse(text)` -/
def parse : Json → Heap → Value × Heap
  | .null, heap => (.null, heap)
  | .bool b, heap => (.bool b, heap)
  | .num n, heap => (.num n, heap)
  | .str s, heap => (.str s, heap)
  | .arr items, heap =>
      let (values, heap) := parseItems items heap
      heap.new (.array values)
  | .obj fields, heap =>
      let (fields, heap) := parseFields fields heap
      heap.new (.object fields)

def parseItems : List Json → Heap → List Value × Heap
  | [], heap => ([], heap)
  | item :: rest, heap =>
      let (value, heap) := parse item heap
      let (values, heap) := parseItems rest heap
      (value :: values, heap)

def parseFields : List (String × Json) → Heap →
    List (String × Value) × Heap
  | [], heap => ([], heap)
  | (key, item) :: rest, heap =>
      let (value, heap) := parse item heap
      let (fields, heap) := parseFields rest heap
      ((key, value) :: fields, heap)
end

/-- `JSON.parse(JSON.stringify(value))` -/
def deepClone (heap : Heap) (value : Value) : Option (Value × Heap) :=
  (heap.stringify value).map fun tree => parse tree heap

/-! What a value holds. -/

/-- The value leads to a tree. -/
def Holds (heap : Heap) (value : Value) (tree : Json) : Prop :=
  ∃ fuel, heap.read fuel value = some tree

/-- Nothing that was there has changed. -/
def Extends (heap before : Heap) : Prop :=
  before.cells <+: heap.cells

theorem Extends.refl (heap : Heap) : heap.Extends heap :=
  List.prefix_refl _

theorem Extends.trans {first second third : Heap}
    (h : third.Extends second) (h' : second.Extends first) :
    third.Extends first :=
  List.IsPrefix.trans h' h

theorem Extends.cell {heap before : Heap} (h : heap.Extends before)
    {address : Nat} {cell : Cell} (found : before.cells[address]? = some cell) :
    heap.cells[address]? = some cell := by
  obtain ⟨rest, hrest⟩ := h
  obtain ⟨hlength, _⟩ := List.getElem?_eq_some_iff.mp found
  rw [← hrest, List.getElem?_append_left hlength, found]

theorem Extends.new (heap : Heap) (cell : Cell) :
    (heap.new cell).2.Extends heap :=
  List.prefix_append _ _

theorem Extends.modify {heap before : Heap} (h : heap.Extends before)
    {change : List (String × Value) → List (String × Value)} {address : Nat}
    (fresh : before.cells.length ≤ address) :
    (heap.modify change (.ref address)).Extends before := by
  simp only [Heap.modify]
  split
  · obtain ⟨rest, hrest⟩ := h
    unfold Extends
    dsimp only
    rw [← hrest, List.set_append_right _ _ fresh]
    exact List.prefix_append _ _
  · exact h

/-- The value is none of those that `before` knows. -/
def Fresh (before : Heap) (value : Value) : Prop :=
  ∀ address, value = .ref address → before.cells.length ≤ address

theorem Extends.modify_fresh {heap before : Heap} (h : heap.Extends before)
    {change : List (String × Value) → List (String × Value)} {value : Value}
    (fresh : before.Fresh value) :
    (heap.modify change value).Extends before := by
  cases value with
  | ref address => exact h.modify (fresh address rfl)
  | null => exact h
  | bool b => exact h
  | num n => exact h
  | str s => exact h

theorem Extends.length_le {heap before : Heap} (h : heap.Extends before) :
    before.cells.length ≤ heap.cells.length :=
  List.IsPrefix.length_le h

theorem Extends.get? {heap before : Heap} (h : heap.Extends before)
    {target value : Value} {key : String}
    (found : before.get? target key = some value) :
    heap.get? target key = some value := by
  cases target with
  | ref address =>
      cases hcell : before.cells[address]? with
      | none => simp [Heap.get?, cell?, hcell] at found
      | some cell =>
          simp only [Heap.get?, cell?, hcell] at found
          simp only [Heap.get?, cell?, h.cell hcell]
          exact found
  | null => cases found
  | bool b => cases found
  | num n => cases found
  | str s => cases found

theorem get?_ref {heap : Heap} {address : Nat}
    {fields : List (String × Value)}
    (found : heap.cells[address]? = some (.object fields)) (key : String) :
    heap.get? (.ref address) key = fields.lookup key := by
  simp only [get?, cell?, found]

theorem cell_new (heap : Heap) (cell : Cell) :
    (heap.new cell).2.cells[heap.cells.length]? = some cell :=
  List.getElem?_concat_length ..

theorem cell_modify {heap : Heap}
    {change : List (String × Value) → List (String × Value)} {address : Nat}
    {fields : List (String × Value)}
    (found : heap.cells[address]? = some (.object fields)) :
    (heap.modify change (.ref address)).cells[address]? =
      some (.object (change fields)) := by
  simp only [modify, found]
  obtain ⟨hlength, _⟩ := List.getElem?_eq_some_iff.mp found
  rw [List.getElem?_set_self hlength]

theorem cell_modify_ne {heap : Heap}
    {change : List (String × Value) → List (String × Value)}
    {address other : Nat} (ne : address ≠ other) :
    (heap.modify change (.ref address)).cells[other]? =
      heap.cells[other]? := by
  simp only [modify]
  split
  · exact List.getElem?_set_ne ne
  · rfl

/-! Reading. -/

section Reading

variable {heap : Heap} {fuel : Nat} {tree : Json} {address : Nat}

theorem read_null : heap.read fuel .null = some .null := by
  cases fuel <;> rfl

theorem read_bool {b : Bool} : heap.read fuel (.bool b) = some (.bool b) := by
  cases fuel <;> rfl

theorem read_num {n : Int} : heap.read fuel (.num n) = some (.num n) := by
  cases fuel <;> rfl

theorem read_str {s : String} : heap.read fuel (.str s) = some (.str s) := by
  cases fuel <;> rfl

theorem read_array {items : List Value}
    (found : heap.cells[address]? = some (.array items)) :
    heap.read (fuel + 1) (.ref address) = some tree ↔
      ∃ trees, tree = .arr trees ∧ List.Forall₂
        (fun value item => heap.read fuel value = some item) items trees := by
  simp only [read, found, Option.map_eq_some_iff, mapM_eq_some_iff]
  exact ⟨fun ⟨trees, h, htree⟩ => ⟨trees, htree.symm, h⟩,
    fun ⟨trees, htree, h⟩ => ⟨trees, h, htree.symm⟩⟩

theorem read_object {fields : List (String × Value)}
    (found : heap.cells[address]? = some (.object fields)) :
    heap.read (fuel + 1) (.ref address) = some tree ↔
      ∃ trees, tree = .obj trees ∧ Fields.Rel
        (fun value item => heap.read fuel value = some item) fields trees := by
  have hfield : ∀ (field : String × Value) (item : String × Json),
      ((heap.read fuel field.2).map (field.1, ·) = some item ↔
        field.1 = item.1 ∧ heap.read fuel field.2 = some item.2) := by
    intro field item
    rw [Option.map_eq_some_iff]
    constructor
    · rintro ⟨value, hvalue, rfl⟩
      exact ⟨rfl, hvalue⟩
    · intro ⟨hkey, hvalue⟩
      exact ⟨item.2, hvalue, by rw [hkey]⟩
  simp only [read, found, Option.map_eq_some_iff, mapM_eq_some_iff, hfield]
  exact ⟨fun ⟨trees, h, htree⟩ => ⟨trees, htree.symm, h⟩,
    fun ⟨trees, htree, h⟩ => ⟨trees, h, htree.symm⟩⟩

theorem read_mono {after : Heap} (extends_ : after.Extends heap) {more : Nat}
    (le : fuel ≤ more) {value : Value} (h : heap.read fuel value = some tree) :
    after.read more value = some tree := by
  induction fuel generalizing value tree more with
  | zero =>
      cases value with
      | null => rw [read_null] at h ⊢; exact h
      | bool b => rw [read_bool] at h ⊢; exact h
      | num n => rw [read_num] at h ⊢; exact h
      | str s => rw [read_str] at h ⊢; exact h
      | ref address => cases h
  | succ fuel ih =>
      obtain ⟨more, rfl⟩ : ∃ less, more = less + 1 :=
        ⟨more - 1, by omega⟩
      have hle : fuel ≤ more := by omega
      cases value with
      | null => exact h
      | bool b => exact h
      | num n => exact h
      | str s => exact h
      | ref address =>
          cases hcell : heap.cells[address]? with
          | none => simp [read, hcell] at h
          | some cell =>
              have hafter := extends_.cell hcell
              cases cell with
              | array items =>
                  rw [read_array hcell] at h
                  rw [read_array hafter]
                  obtain ⟨trees, htree, hall⟩ := h
                  exact ⟨trees, htree, hall.imp fun _ _ => ih hle⟩
              | object fields =>
                  rw [read_object hcell] at h
                  rw [read_object hafter]
                  obtain ⟨trees, htree, hall⟩ := h
                  exact ⟨trees, htree, hall.imp fun _ _ => ih hle⟩

end Reading

section Holding

variable {heap before after : Heap} {value : Value} {tree other : Json}
  {address : Nat}

theorem Holds.extends (h : before.Holds value tree)
    (extends_ : heap.Extends before) : heap.Holds value tree := by
  obtain ⟨fuel, hread⟩ := h
  exact ⟨fuel, read_mono extends_ (Nat.le_refl _) hread⟩

theorem Holds.unique (h : heap.Holds value tree)
    (h' : heap.Holds value other) : tree = other := by
  obtain ⟨fuel, hread⟩ := h
  obtain ⟨fuel', hread'⟩ := h'
  have htree := read_mono (.refl heap) (Nat.le_max_left fuel fuel') hread
  have hother := read_mono (.refl heap) (Nat.le_max_right fuel fuel') hread'
  exact Option.some.inj (htree.symm.trans hother)

theorem holds_null : heap.Holds .null .null := ⟨0, rfl⟩

theorem holds_bool {b : Bool} : heap.Holds (.bool b) (.bool b) := ⟨0, rfl⟩

theorem holds_num {n : Int} : heap.Holds (.num n) (.num n) := ⟨0, rfl⟩

theorem holds_str {s : String} : heap.Holds (.str s) (.str s) := ⟨0, rfl⟩

theorem exists_fuel {α β : Type} {P : Nat → α → β → Prop}
    (mono : ∀ fuel more item tree, fuel ≤ more → P fuel item tree →
      P more item tree)
    {items : List α} {trees : List β}
    (h : List.Forall₂ (fun item tree => ∃ fuel, P fuel item tree) items
      trees) :
    ∃ fuel, List.Forall₂ (P fuel) items trees := by
  induction h with
  | nil => exact ⟨0, .nil⟩
  | cons hhead hrest ih =>
      obtain ⟨first, hfirst⟩ := hhead
      obtain ⟨fuel, hall⟩ := ih
      exact ⟨max first fuel,
        .cons (mono _ _ _ _ (Nat.le_max_left _ _) hfirst)
          (hall.imp fun _ _ => mono _ _ _ _ (Nat.le_max_right _ _))⟩

theorem holds_array {items : List Value}
    (found : heap.cells[address]? = some (.array items)) :
    heap.Holds (.ref address) tree ↔
      ∃ trees, tree = .arr trees ∧ List.Forall₂ heap.Holds items trees := by
  constructor
  · intro ⟨fuel, hread⟩
    cases fuel with
    | zero => cases hread
    | succ fuel =>
        obtain ⟨trees, htree, hall⟩ := (read_array found).mp hread
        exact ⟨trees, htree, hall.imp fun _ _ h => ⟨fuel, h⟩⟩
  · intro ⟨trees, htree, hall⟩
    obtain ⟨fuel, hfuel⟩ := exists_fuel
      (P := fun fuel item tree => heap.read fuel item = some tree)
      (fun _ _ _ _ hle => read_mono (.refl heap) hle) hall
    exact ⟨fuel + 1, (read_array found).mpr ⟨trees, htree, hfuel⟩⟩

theorem holds_object {fields : List (String × Value)}
    (found : heap.cells[address]? = some (.object fields)) :
    heap.Holds (.ref address) tree ↔
      ∃ trees, tree = .obj trees ∧ Fields.Rel heap.Holds fields trees := by
  constructor
  · intro ⟨fuel, hread⟩
    cases fuel with
    | zero => cases hread
    | succ fuel =>
        obtain ⟨trees, htree, hall⟩ := (read_object found).mp hread
        exact ⟨trees, htree, hall.imp fun _ _ h => ⟨fuel, h⟩⟩
  · intro ⟨trees, htree, hall⟩
    have hfuels : List.Forall₂ (fun (field : String × Value)
        (item : String × Json) => ∃ fuel, field.1 = item.1 ∧
          heap.read fuel field.2 = some item.2) fields trees :=
      List.Forall₂.imp (fun _ _ ⟨hkey, fuel, h⟩ => ⟨fuel, hkey, h⟩) hall
    obtain ⟨fuel, hfuel⟩ := exists_fuel (fun _ _ _ _ hle h =>
      ⟨h.1, read_mono (.refl heap) hle h.2⟩) hfuels
    exact ⟨fuel + 1, (read_object found).mpr ⟨trees, htree, hfuel⟩⟩

theorem Holds.cell (h : heap.Holds (.ref address) tree) :
    (∃ items trees, heap.cells[address]? = some (.array items) ∧
      tree = .arr trees ∧ List.Forall₂ heap.Holds items trees) ∨
    ∃ fields trees, heap.cells[address]? = some (.object fields) ∧
      tree = .obj trees ∧ Fields.Rel heap.Holds fields trees := by
  cases hcell : heap.cells[address]? with
  | none =>
      obtain ⟨fuel, hread⟩ := h
      cases fuel with
      | zero => cases hread
      | succ fuel => simp [read, hcell] at hread
  | some cell =>
      cases cell with
      | array items =>
          obtain ⟨trees, htree, hall⟩ := (holds_array hcell).mp h
          exact .inl ⟨items, trees, rfl, htree, hall⟩
      | object fields =>
          obtain ⟨trees, htree, hall⟩ := (holds_object hcell).mp h
          exact .inr ⟨fields, trees, rfl, htree, hall⟩

theorem Holds.object {trees : List (String × Json)}
    (h : heap.Holds value (.obj trees)) :
    ∃ address fields, value = .ref address ∧
      heap.cells[address]? = some (.object fields) ∧
      Fields.Rel heap.Holds fields trees := by
  cases value with
  | null => exact Json.noConfusion (h.unique holds_null)
  | bool b => exact Json.noConfusion (h.unique holds_bool)
  | num n => exact Json.noConfusion (h.unique holds_num)
  | str s => exact Json.noConfusion (h.unique holds_str)
  | ref address =>
      rcases h.cell with ⟨_, _, _, htree, _⟩ | ⟨fields, _, hcell, htree, hall⟩
      · cases htree
      · cases htree
        exact ⟨address, fields, rfl, hcell, hall⟩

theorem Holds.array {trees : List Json} (h : heap.Holds value (.arr trees)) :
    ∃ address items, value = .ref address ∧
      heap.cells[address]? = some (.array items) ∧
      List.Forall₂ heap.Holds items trees := by
  cases value with
  | null => exact Json.noConfusion (h.unique holds_null)
  | bool b => exact Json.noConfusion (h.unique holds_bool)
  | num n => exact Json.noConfusion (h.unique holds_num)
  | str s => exact Json.noConfusion (h.unique holds_str)
  | ref address =>
      rcases h.cell with ⟨items, _, hcell, htree, hall⟩ | ⟨_, _, _, htree, _⟩
      · cases htree
        exact ⟨address, items, rfl, hcell, hall⟩
      · cases htree

theorem Holds.eq_str {s : String} (h : heap.Holds value (.str s)) :
    value = .str s := by
  cases value with
  | null => exact Json.noConfusion (h.unique holds_null)
  | bool b => exact Json.noConfusion (h.unique holds_bool)
  | num n => exact Json.noConfusion (h.unique holds_num)
  | str other =>
      have heq := h.unique holds_str
      injection heq with heq
      rw [heq]
  | ref address =>
      rcases h.cell with ⟨_, _, _, htree, _⟩ | ⟨_, _, _, htree, _⟩
      · cases htree
      · cases htree

theorem Holds.get? {trees : List (String × Json)}
    (h : heap.Holds value (.obj trees)) {key : String}
    (found : trees.lookup key = some tree) :
    ∃ part, heap.get? value key = some part ∧ heap.Holds part tree := by
  obtain ⟨address, fields, rfl, hcell, hall⟩ := h.object
  obtain ⟨part, hpart, hholds⟩ := hall.exists_lookup found
  exact ⟨part, by rw [get?_ref hcell, hpart], hholds⟩

theorem Holds.get?_none {trees : List (String × Json)}
    (h : heap.Holds value (.obj trees)) {key : String}
    (missing : trees.lookup key = none) : heap.get? value key = none := by
  obtain ⟨address, fields, rfl, hcell, hall⟩ := h.object
  rw [get?_ref hcell, hall.lookup_none missing]

theorem Holds.cell?_extends {larger : Heap} (h : heap.Holds value tree)
    (extends_ : larger.Extends heap) :
    larger.cell? value = heap.cell? value := by
  cases value with
  | ref address =>
      rcases h.cell with ⟨_, _, hcell, _⟩ | ⟨_, _, hcell, _⟩
      · exact (extends_.cell hcell).trans hcell.symm
      · exact (extends_.cell hcell).trans hcell.symm
  | null => rfl
  | bool b => rfl
  | num n => rfl
  | str s => rfl

theorem Holds.get?_extends {larger : Heap} (h : heap.Holds value tree)
    (extends_ : larger.Extends heap) (key : String) :
    larger.get? value key = heap.get? value key := by
  unfold Heap.get?
  rw [h.cell?_extends extends_]

theorem exists_holds_field {fields : List (String × Value)}
    {trees : List (String × Json)} (h : Fields.Rel heap.Holds fields trees)
    {key : String} {part : Value} (found : fields.lookup key = some part) :
    ∃ tree, heap.Holds part tree := by
  cases hlookup : trees.lookup key with
  | none =>
      rw [h.lookup_none hlookup] at found
      cases found
  | some tree =>
      obtain ⟨other, hother, hholds⟩ := h.exists_lookup hlookup
      rw [found, Option.some.injEq] at hother
      exact ⟨tree, hother ▸ hholds⟩

theorem Holds.object_of_get? {part : Value} {key : String}
    (h : heap.Holds value tree) (found : heap.get? value key = some part) :
    ∃ trees, tree = .obj trees := by
  cases value with
  | ref address =>
      rcases h.cell with ⟨items, _, hcell, _⟩ | ⟨_, trees, _, htree, _⟩
      · simp [Heap.get?, cell?, hcell] at found
      · exact ⟨trees, htree⟩
  | null => cases found
  | bool b => cases found
  | num n => cases found
  | str s => cases found

theorem Holds.part {part : Value} {key : String} (h : heap.Holds value tree)
    (found : heap.get? value key = some part) :
    ∃ tree, heap.Holds part tree := by
  obtain ⟨trees, rfl⟩ := h.object_of_get? found
  obtain ⟨address, fields, rfl, hcell, hall⟩ := h.object
  rw [get?_ref hcell] at found
  exact exists_holds_field hall found

theorem Holds.eq_null (h : heap.Holds value .null) : value = .null := by
  cases value with
  | null => rfl
  | bool b => exact Json.noConfusion (h.unique holds_bool)
  | num n => exact Json.noConfusion (h.unique holds_num)
  | str s => exact Json.noConfusion (h.unique holds_str)
  | ref address =>
      rcases h.cell with ⟨_, _, _, htree, _⟩ | ⟨_, _, _, htree, _⟩
      · cases htree
      · cases htree

end Holding

/-! What is stored is read again. -/

section Parsing

/-- The values hold the trees, and what was there is kept. -/
structure Parsed {α β : Type} (R : Heap → α → β → Prop) (before : Heap)
    (result : α × Heap) (tree : β) : Prop where
  extends_ : result.2.Extends before
  holds : R result.2 result.1 tree

abbrev HoldsItems (heap : Heap) : List Value → List Json → Prop :=
  List.Forall₂ heap.Holds

abbrev HoldsFields (heap : Heap) :
    List (String × Value) → List (String × Json) → Prop :=
  Fields.Rel heap.Holds

theorem HoldsFields.extends {heap before : Heap}
    {fields : List (String × Value)} {trees : List (String × Json)}
    (h : before.HoldsFields fields trees) (extends_ : heap.Extends before) :
    heap.HoldsFields fields trees :=
  h.imp fun _ _ h => h.extends extends_

theorem new_array {heap : Heap} {items : List Value} {trees : List Json}
    (h : heap.HoldsItems items trees) :
    Parsed Holds heap (heap.new (.array items)) (.arr trees) where
  extends_ := .new heap _
  holds := (holds_array (cell_new heap _)).mpr
    ⟨trees, rfl, h.imp fun _ _ h => h.extends (.new heap _)⟩

theorem new_object {heap : Heap} {fields : List (String × Value)}
    {trees : List (String × Json)} (h : heap.HoldsFields fields trees) :
    Parsed Holds heap (heap.new (.object fields)) (.obj trees) where
  extends_ := .new heap _
  holds := (holds_object (cell_new heap _)).mpr
    ⟨trees, rfl, h.extends (.new heap _)⟩

mutual
theorem parse_spec (tree : Json) (heap : Heap) :
    Parsed Holds heap (parse tree heap) tree := by
  cases tree with
  | null => exact ⟨.refl heap, holds_null⟩
  | bool b => exact ⟨.refl heap, holds_bool⟩
  | num n => exact ⟨.refl heap, holds_num⟩
  | str s => exact ⟨.refl heap, holds_str⟩
  | arr items =>
      obtain ⟨hextends, hholds⟩ := parseItems_spec items heap
      have hnew := new_array hholds
      exact ⟨hnew.extends_.trans hextends, hnew.holds⟩
  | obj fields =>
      obtain ⟨hextends, hholds⟩ := parseFields_spec fields heap
      have hnew := new_object hholds
      exact ⟨hnew.extends_.trans hextends, hnew.holds⟩

theorem parseItems_spec (items : List Json) (heap : Heap) :
    Parsed HoldsItems heap (parseItems items heap) items := by
  cases items with
  | nil => exact ⟨.refl heap, .nil⟩
  | cons item rest =>
      obtain ⟨hfirst, hitem⟩ := parse_spec item heap
      obtain ⟨hrest, hitems⟩ := parseItems_spec rest (parse item heap).2
      exact ⟨hrest.trans hfirst, .cons (hitem.extends hrest) hitems⟩

theorem parseFields_spec (fields : List (String × Json)) (heap : Heap) :
    Parsed HoldsFields heap (parseFields fields heap) fields := by
  cases fields with
  | nil => exact ⟨.refl heap, .nil⟩
  | cons field rest =>
      obtain ⟨key, item⟩ := field
      obtain ⟨hfirst, hitem⟩ := parse_spec item heap
      obtain ⟨hrest, hfields⟩ := parseFields_spec rest (parse item heap).2
      exact ⟨hrest.trans hfirst, .cons ⟨rfl, hitem.extends hrest⟩ hfields⟩
end

theorem parse_fresh (tree : Json) (heap : Heap) :
    heap.Fresh (parse tree heap).1 := by
  intro address h
  cases tree with
  | null => cases h
  | bool b => cases h
  | num n => cases h
  | str s => cases h
  | arr items =>
      cases h
      exact (parseItems_spec items heap).extends_.length_le
  | obj fields =>
      cases h
      exact (parseFields_spec fields heap).extends_.length_le

end Parsing

/-! Whatever can be read is read with as much fuel as there are cells. -/

section Fuel

variable {heap : Heap} {value : Value} {tree : Json} {address : Nat}

open Classical in
/-- The cells whose trees are smaller. -/
noncomputable def smaller (heap : Heap) (tree : Json) : Finset Nat :=
  (Finset.range heap.cells.length).filter fun address =>
    ∃ other, heap.Holds (.ref address) other ∧ sizeOf other < sizeOf tree

theorem mem_smaller : address ∈ heap.smaller tree ↔
    address < heap.cells.length ∧
      ∃ other, heap.Holds (.ref address) other ∧
        sizeOf other < sizeOf tree := by
  simp only [smaller, Finset.mem_filter, Finset.mem_range]

theorem Holds.lt_length (h : heap.Holds (.ref address) tree) :
    address < heap.cells.length := by
  rcases h.cell with ⟨_, _, hcell, _⟩ | ⟨_, _, hcell, _⟩
  · exact (List.getElem?_eq_some_iff.mp hcell).1
  · exact (List.getElem?_eq_some_iff.mp hcell).1

theorem card_smaller_lt {part : Json} (h : heap.Holds (.ref address) part)
    (lt : sizeOf part < sizeOf tree) :
    (heap.smaller part).card < (heap.smaller tree).card := by
  apply Finset.card_lt_card
  rw [Finset.ssubset_iff_of_subset]
  · refine ⟨address, mem_smaller.mpr ⟨h.lt_length, part, h, lt⟩, ?_⟩
    intro hmem
    obtain ⟨_, other, hother, hless⟩ := mem_smaller.mp hmem
    rw [hother.unique h] at hless
    exact Nat.lt_irrefl _ hless
  · intro other hmem
    obtain ⟨hlength, found, hholds, hless⟩ := mem_smaller.mp hmem
    exact mem_smaller.mpr ⟨hlength, found, hholds, hless.trans lt⟩

theorem card_smaller_lt_length (h : heap.Holds (.ref address) tree) :
    (heap.smaller tree).card < heap.cells.length := by
  calc (heap.smaller tree).card
      < (Finset.range heap.cells.length).card := by
        apply Finset.card_lt_card
        rw [Finset.ssubset_iff_of_subset]
        · refine ⟨address, Finset.mem_range.mpr h.lt_length, fun hmem => ?_⟩
          obtain ⟨_, other, hother, hless⟩ := mem_smaller.mp hmem
          rw [hother.unique h] at hless
          exact Nat.lt_irrefl _ hless
        · intro other hmem
          exact Finset.mem_range.mpr (mem_smaller.mp hmem).1
    _ = heap.cells.length := Finset.card_range _

theorem forall₂_and_mem {α β : Type} {R : α → β → Prop} {items : List α}
    {others : List β} (h : List.Forall₂ R items others) :
    List.Forall₂ (fun item other => R item other ∧ other ∈ others) items
      others := by
  induction h with
  | nil => exact .nil
  | cons hhead hrest ih =>
      exact .cons ⟨hhead, List.mem_cons_self⟩
        (ih.imp fun _ _ h => ⟨h.1, List.mem_cons_of_mem _ h.2⟩)

theorem sizeOf_item_lt {items : List Json} (h : tree ∈ items) :
    sizeOf tree < sizeOf (Json.arr items) := by
  have hlist := List.sizeOf_lt_of_mem h
  rw [Json.arr.sizeOf_spec]
  omega

theorem sizeOf_field_lt {fields : List (String × Json)}
    {field : String × Json} (h : field ∈ fields) :
    sizeOf field.2 < sizeOf (Json.obj fields) := by
  have hlist := List.sizeOf_lt_of_mem h
  obtain ⟨key, value⟩ := field
  rw [Prod.mk.sizeOf_spec] at hlist
  rw [Json.obj.sizeOf_spec]
  dsimp only
  omega

theorem read_part {part : Json}
    (h : heap.read ((heap.smaller part).card + 1) value = some part)
    (lt : sizeOf part < sizeOf tree) :
    heap.read (heap.smaller tree).card value = some part := by
  cases value with
  | null => rw [read_null] at h ⊢; exact h
  | bool b => rw [read_bool] at h ⊢; exact h
  | num n => rw [read_num] at h ⊢; exact h
  | str s => rw [read_str] at h ⊢; exact h
  | ref address => exact read_mono (.refl heap) (card_smaller_lt ⟨_, h⟩ lt) h

theorem read_smaller {fuel : Nat} (h : heap.read fuel value = some tree) :
    heap.read ((heap.smaller tree).card + 1) value = some tree := by
  induction fuel generalizing value tree with
  | zero =>
      cases value with
      | null => exact h
      | bool b => exact h
      | num n => exact h
      | str s => exact h
      | ref address => cases h
  | succ fuel ih =>
      cases value with
      | null => exact h
      | bool b => exact h
      | num n => exact h
      | str s => exact h
      | ref address =>
          rcases Holds.cell ⟨_, h⟩ with ⟨items, _, hcell, _⟩ |
            ⟨fields, _, hcell, _⟩
          · obtain ⟨trees, rfl, hall⟩ := (read_array hcell).mp h
            refine (read_array hcell).mpr ⟨trees, rfl, ?_⟩
            exact (forall₂_and_mem hall).imp fun _ _ h =>
              read_part (ih h.1) (sizeOf_item_lt h.2)
          · obtain ⟨trees, rfl, hall⟩ := (read_object hcell).mp h
            refine (read_object hcell).mpr ⟨trees, rfl, ?_⟩
            exact (forall₂_and_mem hall).imp fun _ _ h =>
              ⟨h.1.1, read_part (ih h.1.2) (sizeOf_field_lt h.2)⟩

theorem Holds.stringify (h : heap.Holds value tree) :
    heap.stringify value = some tree := by
  cases value with
  | null => rw [h.unique holds_null]; exact read_null
  | bool b => rw [h.unique holds_bool]; exact read_bool
  | num n => rw [h.unique holds_num]; exact read_num
  | str s => rw [h.unique holds_str]; exact read_str
  | ref address =>
      obtain ⟨fuel, hread⟩ := h
      exact read_mono (.refl heap) (card_smaller_lt_length ⟨fuel, hread⟩)
        (read_smaller hread)

theorem deepClone_spec (h : heap.Holds value tree) :
    heap.deepClone value = some (parse tree heap) := by
  unfold deepClone
  rw [h.stringify]
  rfl

theorem deepClone_eq_some {copy : Value} {after : Heap}
    (h : heap.deepClone value = some (copy, after)) :
    after.Extends heap ∧ heap.Fresh copy ∧ ∃ tree, heap.Holds value tree ∧
      after.Holds copy tree := by
  obtain ⟨tree, htree, hparse⟩ := Option.map_eq_some_iff.mp h
  have hspec := parse_spec tree heap
  have hfresh := parse_fresh tree heap
  rw [hparse] at hspec hfresh
  exact ⟨hspec.extends_, hfresh, tree, ⟨_, htree⟩, hspec.holds⟩

theorem deepClone_object {trees : List (String × Json)}
    (h : heap.Holds value (.obj trees)) :
    ∃ (base : Heap) (fields : List (String × Value)), base.Extends heap ∧
      base.HoldsFields fields trees ∧
      heap.deepClone value = some (base.new (.object fields)) :=
  ⟨(parseFields trees heap).2, (parseFields trees heap).1,
    (parseFields_spec trees heap).extends_,
    (parseFields_spec trees heap).holds, deepClone_spec h⟩

end Fuel

end Heap

end TwakeKickstart.Library
