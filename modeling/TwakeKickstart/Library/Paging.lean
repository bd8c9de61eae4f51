import Mathlib.Data.List.Nodup
import Mathlib.Data.Rat.Floor
import Mathlib.Tactic.Ring

namespace TwakeKickstart.Library

/-! Windows that are cut out of a list, and the decimal texts that may say
where. -/

variable {α : Type}

/-- The position in a list of a relative index. -/
def sliceIndex (length : Nat) (index : Int) : Nat :=
  if index < 0 then (length + index).toNat else min index.toNat length

/-- `items.slice(start, end)` -/
def slice (items : List α) (first last : Int) : List α :=
  (items.take (sliceIndex items.length last)).drop
    (sliceIndex items.length first)

theorem sliceIndex_natCast (length index : Nat) :
    sliceIndex length index = min index length := by
  unfold sliceIndex
  rw [if_neg (by omega), Int.toNat_natCast]

theorem slice_natCast (items : List α) (first last : Nat) :
    slice items first last = (items.take last).drop first := by
  unfold slice
  rw [sliceIndex_natCast, sliceIndex_natCast, ← List.take_eq_take_min]
  rcases Nat.le_total first items.length with h | h
  · rw [Nat.min_eq_left h]
  · have hlength := List.length_take_le' last items
    rw [Nat.min_eq_right h, List.drop_eq_nil_of_le hlength,
      List.drop_eq_nil_of_le (Nat.le_trans hlength h)]

theorem slice_all {items : List α} {last : Int}
    (within : (items.length : Int) ≤ last) : slice items 0 last = items := by
  have hlast : sliceIndex items.length last = items.length := by
    unfold sliceIndex
    rw [if_neg (by omega)]
    omega
  unfold slice
  rw [hlast, List.take_length]
  rfl

theorem slice_map {β : Type} (f : α → β) (items : List α) (first last : Int) :
    slice (items.map f) first last = (slice items first last).map f := by
  unfold slice
  rw [List.length_map, ← List.map_take, ← List.map_drop]

theorem mem_of_mem_slice {items : List α} {first last : Int} {item : α}
    (h : item ∈ slice items first last) : item ∈ items :=
  List.mem_of_mem_take (List.mem_of_mem_drop h)

theorem length_window (items : List α) (start stop : Nat) :
    ((items.take stop).drop start).length =
      min stop items.length - start := by
  rw [List.length_drop, List.length_take]

theorem mem_window {items : List α} (nodup : items.Nodup) {item : α}
    {index : Nat} (h : items[index]? = some item) (start stop : Nat) :
    item ∈ (items.take stop).drop start ↔ start ≤ index ∧ index < stop := by
  rw [List.mem_iff_getElem?]
  constructor
  · rintro ⟨place, hplace⟩
    rw [List.getElem?_drop, List.getElem?_take] at hplace
    split at hplace
    · rename_i hstop
      obtain ⟨hlength, _⟩ := List.getElem?_eq_some_iff.mp h
      have hsame := (List.getElem?_inj hlength nodup).mp (h.trans hplace.symm)
      omega
    · cases hplace
  · rintro ⟨hstart, hstop⟩
    refine ⟨index - start, ?_⟩
    rw [List.getElem?_drop, List.getElem?_take, if_pos (by omega),
      Nat.add_sub_cancel' hstart, h]

/-- Windows between bounds that grow without end tile a list. -/
theorem existsUnique_window {items : List α} (nodup : items.Nodup)
    {bound : Nat → Nat} (mono : Monotone bound) (zero : bound 0 = 0)
    (unbounded : ∀ index, ∃ page, index < bound page) {item : α}
    (h : item ∈ items) :
    ∃! page, item ∈ (items.take (bound (page + 1))).drop (bound page) := by
  obtain ⟨index, hindex⟩ := List.mem_iff_getElem?.mp h
  have hpast := Nat.find_spec (unbounded index)
  have hbefore := fun page => Nat.find_min (unbounded index) (m := page)
  cases hpage : Nat.find (unbounded index) with
  | zero =>
      rw [hpage, zero] at hpast
      exact absurd hpast (Nat.not_lt_zero _)
  | succ page =>
      rw [hpage] at hpast
      have hstart := hbefore page (hpage.symm ▸ Nat.lt_succ_self page)
      refine ⟨page, (mem_window nodup hindex _ _).mpr
        ⟨Nat.le_of_not_lt hstart, hpast⟩, ?_⟩
      intro other hother
      obtain ⟨hfirst, hlast⟩ := (mem_window nodup hindex _ _).mp hother
      rcases Nat.lt_trichotomy other page with hlt | heq | hgt
      · have hle : bound (other + 1) ≤ bound page := mono hlt
        omega
      · exact heq
      · have hle : bound (page + 1) ≤ bound other := mono hgt
        omega

section Multiples

variable {size : ℚ}

/-- The whole part of a multiple. -/
theorem floor_multiple (positive : 0 < size) (k : Nat) :
    ⌊k * size⌋₊ = ⌊k * Int.fract size⌋₊ + k * ⌊size⌋₊ := by
  have hsize : size = Int.fract size + ⌊size⌋₊ := by
    rw [natCast_floor_eq_intCast_floor positive.le, Int.fract_add_floor]
  have hproduct : k * size = k * Int.fract size + (k * ⌊size⌋₊ : Nat) := by
    rw [Nat.cast_mul, ← mul_add, ← hsize]
  rw [hproduct, Nat.floor_add_natCast
    (mul_nonneg (Nat.cast_nonneg k) (Int.fract_nonneg size))]

/-- No window between two multiples has more items than fit in the size
exactly when the size is whole, or the list ends before the fractions make up
an item. -/
theorem windows_fit_iff (positive : 0 < size) (length : Nat) :
    (∀ k : Nat, min ⌊((k + 1 : Nat) : ℚ) * size⌋₊ length - ⌊k * size⌋₊ ≤
        ⌊size⌋₊) ↔
      Int.fract size = 0 ∨ length ≤ ⌈(Int.fract size)⁻¹⌉₊ * ⌊size⌋₊ := by
  have hnonneg := Int.fract_nonneg size
  have hbelow : ∀ k : Nat, k < ⌈(Int.fract size)⁻¹⌉₊ →
      0 < Int.fract size → ⌊k * Int.fract size⌋₊ = 0 := by
    intro k hk hfract
    rw [Nat.floor_eq_zero, ← lt_div_iff₀ hfract, one_div]
    exact Nat.lt_ceil.mp hk
  rcases hnonneg.eq_or_lt with hwhole | hfract
  · refine iff_of_true (fun k => ?_) (.inl hwhole.symm)
    rw [floor_multiple positive, floor_multiple positive, ← hwhole, mul_zero,
      mul_zero, Nat.floor_zero, Nat.succ_mul]
    omega
  · rw [or_iff_right hfract.ne']
    constructor
    · intro hfits
      by_contra hlong
      rw [not_le] at hlong
      have hpositive : 0 < ⌈(Int.fract size)⁻¹⌉₊ :=
        Nat.ceil_pos.mpr (inv_pos.mpr hfract)
      obtain ⟨k, hk⟩ := Nat.exists_eq_succ_of_ne_zero hpositive.ne'
      have hfull : 1 ≤ ⌊((k + 1 : Nat) : ℚ) * Int.fract size⌋₊ := by
        rw [Nat.one_le_floor_iff, ← div_le_iff₀ hfract, one_div]
        exact Nat.ceil_le.mp hk.le
      have hwindow := hfits k
      rw [floor_multiple positive, floor_multiple positive,
        hbelow k (hk ▸ Nat.lt_succ_self k) hfract, Nat.succ_mul] at hwindow
      rw [hk, Nat.succ_eq_add_one, Nat.succ_mul] at hlong
      omega
    · intro hshort k
      rw [floor_multiple positive, floor_multiple positive k]
      rcases Nat.lt_or_ge (k + 1) ⌈(Int.fract size)⁻¹⌉₊ with hlt | hge
      · rw [hbelow (k + 1) hlt hfract, Nat.succ_mul]
        omega
      · have hend := hshort.trans (Nat.mul_le_mul_right ⌊size⌋₊ hge)
        rw [Nat.succ_mul] at hend
        omega

end Multiples

/-! A test after a cut, and a cut after the test. -/

section Cut

variable {test : α → Bool} {items : List α} {count : Nat}

theorem filter_take_append (test : α → Bool) (items : List α) (count : Nat) :
    items.filter test =
      (items.take count).filter test ++ (items.drop count).filter test := by
  rw [← List.filter_append, List.take_append_drop]

/-- The two leave the same items where the cut keeps no others, or loses
none. -/
theorem filter_take_eq
    (h : (∀ item ∈ items.take count, test item = true) ∨
      ∀ item ∈ items.drop count, test item = false) :
    (items.take count).filter test = (items.filter test).take count := by
  rw [filter_take_append test items count]
  obtain hall | hnone := h
  · have hrest : ((items.drop count).filter test).take
        (count - (items.take count).length) = [] := by
      rw [List.length_take, List.take_eq_nil_iff, Nat.sub_eq_zero_iff_le]
      rcases Nat.le_total count items.length with hle | hle
      · exact .inl (Nat.le_of_eq (Nat.min_eq_left hle).symm)
      · rw [List.drop_eq_nil_of_le hle]
        exact .inr rfl
    rw [List.filter_eq_self.mpr hall, List.take_append, hrest, List.take_take,
      Nat.min_self, List.append_nil]
  · have hdropped : (items.drop count).filter test = [] := by
      rw [List.filter_eq_nil_iff]
      exact fun item hitem => Bool.eq_false_iff.mp (hnone item hitem)
    have hlength : ((items.take count).filter test).length ≤ count :=
      Nat.le_trans (List.length_filter_le _ _) (List.length_take_le count items)
    rw [hdropped, List.append_nil, List.take_of_length_le hlength]

theorem length_filter_take_iff :
    ((items.take count).filter test).length =
        min count (items.filter test).length ↔
      (∀ item ∈ items.take count, test item = true) ∨
        ∀ item ∈ items.drop count, test item = false := by
  constructor
  · intro h
    have hsplit := congrArg List.length (filter_take_append test items count)
    have htake := List.length_take_le count items
    have hle := List.length_filter_le test (items.take count)
    rw [List.length_append] at hsplit
    by_cases hfull : ((items.take count).filter test).length = count
    · left
      rw [← List.length_filter_eq_length_iff]
      omega
    · right
      have hnone : (items.drop count).filter test = [] :=
        List.eq_nil_of_length_eq_zero (by omega)
      rw [List.filter_eq_nil_iff] at hnone
      exact fun item hitem => Bool.eq_false_iff.mpr (hnone item hitem)
  · intro h
    rw [filter_take_eq h, List.length_take]

end Cut

/-! Decimal texts. -/

def digitsValue (text : List Char) : Nat :=
  text.foldl (fun value c => 10 * value + (c.toNat - '0'.toNat)) 0

theorem digitsValue_append (left right : List Char) :
    digitsValue (left ++ right) =
      digitsValue left * 10 ^ right.length + digitsValue right := by
  have hfold : ∀ (value : Nat) (text : List Char),
      text.foldl (fun value c => 10 * value + (c.toNat - '0'.toNat)) value =
        value * 10 ^ text.length + digitsValue text := by
    intro value text
    induction text generalizing value with
    | nil => simp [digitsValue]
    | cons c rest ih =>
        rw [digitsValue, List.foldl_cons, List.foldl_cons, ih, ih,
          List.length_cons, Nat.pow_succ]
        ring
  rw [digitsValue, List.foldl_append, hfold]
  rfl

theorem digitsValue_lt {text : List Char}
    (digits : text.all Char.isDigit = true) :
    digitsValue text < 10 ^ text.length := by
  induction text with
  | nil => simp [digitsValue]
  | cons c rest ih =>
      obtain ⟨hc, hdigits⟩ := Bool.and_eq_true_iff.mp digits
      have hrest := ih hdigits
      have hdigit : digitsValue [c] ≤ 9 := by
        have hle : c.toNat ≤ '9'.toNat :=
          of_decide_eq_true (Bool.and_eq_true_iff.mp hc).2
        have hnine : '9'.toNat = '0'.toNat + 9 := rfl
        rw [digitsValue, List.foldl_cons, List.foldl_nil]
        omega
      rw [← List.singleton_append, digitsValue_append, List.length_append,
        List.length_singleton, Nat.pow_add, Nat.pow_one]
      have hscaled := Nat.mul_le_mul_right (10 ^ rest.length) hdigit
      omega

/-- The digit of a number below ten. -/
def digitChar (n : Nat) : Char := Char.ofNat ('0'.toNat + n)

theorem digitChar_spec : ∀ n < 10,
    (digitChar n).isDigit = true ∧ digitsValue [digitChar n] = n := by
  decide

def decimal (n : Nat) : List Char :=
  if n < 10 then [digitChar n]
  else decimal (n / 10) ++ [digitChar (n % 10)]

theorem decimal_ne_nil (n : Nat) : decimal n ≠ [] := by
  unfold decimal
  split
  · exact List.cons_ne_nil _ _
  · exact List.concat_ne_nil _ _

theorem decimal_digits (n : Nat) : (decimal n).all Char.isDigit = true := by
  induction n using decimal.induct with
  | case1 n hsmall =>
      rw [decimal, if_pos hsmall]
      simp [(digitChar_spec n hsmall).1]
  | case2 n hlarge ih =>
      rw [decimal, if_neg hlarge, List.all_append, ih]
      simp [(digitChar_spec (n % 10) (Nat.mod_lt _ (by decide))).1]

theorem digitsValue_decimal (n : Nat) : digitsValue (decimal n) = n := by
  induction n using decimal.induct with
  | case1 n hsmall => rw [decimal, if_pos hsmall, (digitChar_spec n hsmall).2]
  | case2 n hlarge ih =>
      rw [decimal, if_neg hlarge, digitsValue_append, ih,
        (digitChar_spec (n % 10) (Nat.mod_lt _ (by decide))).2,
        List.length_singleton]
      omega

end TwakeKickstart.Library
