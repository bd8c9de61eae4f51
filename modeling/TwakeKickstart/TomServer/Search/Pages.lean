import Mathlib.Data.List.TakeWhile
import TwakeKickstart.TomServer.Search.Service

namespace TwakeKickstart.TomServer.Search

open Library Utils
open IdentityServer (SupportedDatabases UserDb)
open UserInfo (ProfileRow)

/-! The pages of one search, asked for one after the other. -/

def Amount.isNumber : Amount → Bool
  | number _ => true
  | text _ => false

/-- The requests for all pages of one size: the amounts are numbers of a JSON
body, or texts of an url-encoded one. -/
structure Paging where
  size : ℚ
  positive : 0 < size
  limit : Amount
  offset : Nat → Amount
  limitValue : limit.value = size
  offsetValue : ∀ page, (offset page).value = page * size
  alike : ∀ page, (offset page).isNumber = limit.isNumber

namespace Paging

def start (paging : Paging) (page : Nat) : Nat := ⌊page * paging.size⌋₊

/-- The offset of a page is a text with a point in it. -/
def pointed (paging : Paging) (page : Nat) : Bool :=
  match paging.offset page with
  | .number _ => false
  | .text numeral => numeral.fraction.isSome

/-- Where a page ends; in an url-encoded body the texts are joined, and what
stands behind a point is cut off, or is no number with a second one. -/
def stop (paging : Paging) (page : Nat) : Nat :=
  match paging.limit with
  | .number _ => paging.start (page + 1)
  | .text numeral =>
      if paging.pointed page then
        if numeral.fraction.isNone then paging.start page else 0
      else paging.start page * 10 ^ numeral.whole.length + ⌊paging.size⌋₊

/-- The pages of a result of this length are neither too long nor too short:
numbers are whole, or the result ends before the fractions make up an ID; texts
ask for one page, or for two at most, at offsets without a point. -/
def Fits (paging : Paging) (length : Nat) : Prop :=
  match paging.limit with
  | .number _ =>
      Int.fract paging.size = 0 ∨
        length ≤ ⌈(Int.fract paging.size)⁻¹⌉₊ * ⌊paging.size⌋₊
  | .text _ =>
      length = 0 ∨ paging.pointed 0 = false ∧
        (length ≤ ⌊paging.size⌋₊ ∨
          paging.pointed 1 = false ∧ length ≤ 2 * ⌊paging.size⌋₊)

variable (paging : Paging)

theorem start_mono : Monotone paging.start := by
  intro first second hle
  refine Nat.floor_mono (mul_le_mul_of_nonneg_right ?_ paging.positive.le)
  exact Nat.cast_le.mpr hle

theorem start_zero : paging.start 0 = 0 := by
  rw [start, Nat.cast_zero, zero_mul, Nat.floor_zero]

theorem start_one : paging.start 1 = ⌊paging.size⌋₊ := by
  rw [start, Nat.cast_one, one_mul]

theorem multiple_le_start (page : Nat) :
    page * ⌊paging.size⌋₊ ≤ paging.start page := by
  refine Nat.le_floor ?_
  rw [Nat.cast_mul]
  exact mul_le_mul_of_nonneg_left (Nat.floor_le paging.positive.le)
    (Nat.cast_nonneg page)

theorem start_unbounded (index : Nat) : ∃ page, index < paging.start page := by
  refine ⟨⌈(index + 1 : Nat) / paging.size⌉₊, Nat.lt_of_succ_le
    (Nat.le_floor ?_)⟩
  rw [← div_le_iff₀ paging.positive]
  exact Nat.le_ceil _

end Paging

theorem truncate_of_nonneg {value : ℚ} (nonneg : 0 ≤ value) :
    truncate value = (⌊value⌋₊ : Nat) := by
  rw [truncate, Int.tdiv_eq_ediv_of_nonneg (Rat.num_nonneg.mpr nonneg),
    ← Rat.floor_def, Int.natCast_floor_eq_floor nonneg]
  rfl

/-- What stands behind the digits ends the number, or makes it none. -/
theorem textValue_append {whole behind : List Char} (named : whole ≠ [])
    (digits : whole.all Char.isDigit = true)
    (point : behind = [] ∨ ∃ rest, behind = '.' :: rest) :
    textValue (whole ++ behind) =
      if behind.tail.all Char.isDigit then (digitsValue whole : Int) else 0 := by
  have hall : ∀ c ∈ whole, c.isDigit = true := List.all_eq_true.mp digits
  have hbehind : behind.takeWhile Char.isDigit = [] ∧
      behind.dropWhile Char.isDigit = behind := by
    obtain rfl | ⟨rest, rfl⟩ := point
    · exact ⟨rfl, rfl⟩
    · exact ⟨rfl, rfl⟩
  unfold textValue
  split
  rename_i unsigned negative hmatch
  split at hmatch
  · rename_i rest htext
    obtain ⟨c, tail, rfl⟩ := List.exists_cons_of_ne_nil named
    rw [List.cons_append, List.cons.injEq] at htext
    have hdigit := hall c List.mem_cons_self
    rw [htext.1] at hdigit
    cases hdigit
  · cases hmatch
    rw [List.takeWhile_append_of_pos hall, List.dropWhile_append_of_pos hall,
      hbehind.1, hbehind.2, List.append_nil]
    obtain rfl | ⟨rest, rfl⟩ := point
    · rfl
    · simp

namespace Numeral

variable (numeral : Numeral)

theorem floor_value : ⌊numeral.value⌋₊ = digitsValue numeral.whole := by
  have hpower : (0 : ℚ) < 10 ^ (numeral.fraction.getD []).length :=
    pow_pos (by norm_num) _
  have hbelow : (digitsValue (numeral.fraction.getD []) : ℚ) <
      10 ^ (numeral.fraction.getD []).length := by
    exact_mod_cast digitsValue_lt numeral.fractionDigits
  have hfraction : ⌊(digitsValue (numeral.fraction.getD []) : ℚ) /
      10 ^ (numeral.fraction.getD []).length⌋₊ = 0 :=
    Nat.floor_eq_zero.mpr ((div_lt_one hpower).mpr hbelow)
  rw [value, Nat.floor_add_natCast
    (div_nonneg (Nat.cast_nonneg _) hpower.le), hfraction, zero_add]

theorem value_plain (plain : numeral.fraction = none) :
    numeral.value = digitsValue numeral.whole := by
  rw [value, plain]
  simp [digitsValue]

theorem textValue_join (other : Numeral) :
    textValue (numeral.text ++ other.text) =
      if numeral.fraction.isSome then
        if other.fraction.isNone then (digitsValue numeral.whole : Int) else 0
      else digitsValue (numeral.whole ++ other.whole) := by
  cases hfraction : numeral.fraction with
  | none =>
      have hdigits : (numeral.whole ++ other.whole).all Char.isDigit = true := by
        rw [List.all_append, numeral.wholeDigits, other.wholeDigits]
        rfl
      have hnamed : numeral.whole ++ other.whole ≠ [] :=
        List.append_ne_nil_of_left_ne_nil numeral.named _
      have htail := other.fractionDigits
      rw [text, hfraction, List.append_nil, text, ← List.append_assoc]
      cases hother : other.fraction with
      | none => rw [textValue_append hnamed hdigits (.inl rfl)]; rfl
      | some fraction =>
          rw [hother, Option.getD_some] at htail
          rw [textValue_append hnamed hdigits (.inr ⟨fraction, rfl⟩),
            List.tail_cons, if_pos htail]
          rfl
  | some fraction =>
      have hown := numeral.fractionDigits
      rw [hfraction] at hown
      rw [text, hfraction, List.append_assoc, List.cons_append,
        textValue_append numeral.named numeral.wholeDigits (.inr ⟨_, rfl⟩),
        List.tail_cons, text, List.all_append, List.all_append,
        other.wholeDigits]
      cases other.fraction with
      | none => simp [Option.getD_some ▸ hown]
      | some rest => simp [Char.isDigit]

end Numeral

theorem orDefault_zero (amount : Amount) :
    orDefault (some amount) 0 = amount := by
  unfold orDefault
  cases amount with
  | text numeral => rfl
  | number n =>
      change (if n = 0 then Amount.number 0 else .number n) = .number n
      split
      · rename_i hzero
        rw [hzero]
      · rfl

theorem orDefault_of_ne {amount : Amount} (default : ℚ)
    (h : amount.value ≠ 0) : orDefault (some amount) default = amount := by
  cases amount with
  | text numeral => rfl
  | number n => exact if_neg h

section Bounds

variable (paging : Paging)

theorem multiple_nonneg (page : Nat) : 0 ≤ page * paging.size :=
  mul_nonneg (Nat.cast_nonneg page) paging.positive.le

theorem toInteger_offset (page : Nat) :
    (paging.offset page).toInteger = (paging.start page : Nat) := by
  rw [Amount.toInteger, paging.offsetValue,
    truncate_of_nonneg (multiple_nonneg paging page)]
  rfl

theorem floor_of_text {numeral : Numeral}
    (kind : paging.limit = .text numeral) :
    ⌊paging.size⌋₊ = digitsValue numeral.whole := by
  have hlimit := paging.limitValue
  rw [kind] at hlimit
  rw [← hlimit]
  exact numeral.floor_value

/-- An offset without a point is whole. -/
theorem start_plain {numeral : Numeral} (kind : paging.limit = .text numeral)
    {page : Nat} (plain : paging.pointed page = false) :
    (paging.start page : ℚ) = page * paging.size := by
  have hoffset := paging.offsetValue page
  have halike := paging.alike page
  unfold Paging.pointed at plain
  rw [kind] at halike
  cases hpage : paging.offset page with
  | number m =>
      rw [hpage] at halike
      cases halike
  | text start =>
      rw [hpage] at hoffset
      simp only [hpage, Option.isSome_eq_false_iff, Option.isNone_iff_eq_none]
        at plain
      have hvalue : start.value = page * paging.size := hoffset
      rw [start.value_plain plain] at hvalue
      rw [Paging.start, ← hvalue, Nat.floor_natCast]

theorem plus_offset (page : Nat) :
    (paging.offset page).plus paging.limit = (paging.stop page : Nat) := by
  have hlimit := paging.limitValue
  have hoffset := paging.offsetValue page
  have halike := paging.alike page
  unfold Paging.stop
  cases hkind : paging.limit with
  | number n =>
      rw [hkind] at hlimit halike
      cases hstart : paging.offset page with
      | text numeral =>
          rw [hstart] at halike
          cases halike
      | number m =>
          rw [hstart] at hoffset
          have hsum : m + n = (page + 1 : Nat) * paging.size := by
            simp only [Amount.value] at hlimit hoffset
            rw [hlimit, hoffset]
            push_cast
            ring
          rw [Amount.plus, hsum,
            truncate_of_nonneg (multiple_nonneg paging (page + 1))]
          rfl
  | text numeral =>
      rw [hkind] at halike
      cases hstart : paging.offset page with
      | number m =>
          rw [hstart] at halike
          cases halike
      | text start =>
          have hwhole : digitsValue start.whole = paging.start page := by
            rw [hstart] at hoffset
            rw [Paging.start, ← hoffset]
            exact start.floor_value.symm
          simp only [Amount.plus, Amount.toText, Paging.pointed, hstart]
          rw [start.textValue_join numeral, digitsValue_append, hwhole,
            ← floor_of_text paging hkind]
          split
          · split <;> rfl
          · rfl

theorem stop_pointed {numeral : Numeral} (kind : paging.limit = .text numeral)
    {page : Nat} (point : paging.pointed page = true) :
    paging.stop page ≤ paging.start page := by
  simp only [Paging.stop, kind, point, if_true]
  split
  · exact Nat.le_refl _
  · exact Nat.zero_le _

/-- A text in front of the limit makes the page end far behind its own end. -/
theorem lt_stop {numeral : Numeral} (kind : paging.limit = .text numeral)
    (plain : paging.pointed 1 = false) :
    2 * ⌊paging.size⌋₊ < paging.stop 1 := by
  have hwhole := start_plain paging kind plain
  rw [Nat.cast_one, one_mul, paging.start_one] at hwhole
  have hpositive : 0 < ⌊paging.size⌋₊ := by
    have hsize := paging.positive
    rwa [← hwhole, Nat.cast_pos] at hsize
  have hlength : 0 < numeral.whole.length :=
    List.length_pos_iff.mpr numeral.named
  have hpower : 10 ^ 1 ≤ 10 ^ numeral.whole.length :=
    Nat.pow_le_pow_right (by decide) hlength
  have hproduct := Nat.mul_le_mul_left ⌊paging.size⌋₊ hpower
  simp only [Paging.stop, kind, plain, paging.start_one, Bool.false_eq_true,
    if_false]
  omega

/-- What the pages have to have for a text to fit: every ID lies on one, and
the second is not too long. -/
theorem fits_text {numeral : Numeral} (kind : paging.limit = .text numeral)
    {length : Nat}
    (selected : ∀ index < length, ∃ page,
      paging.start page ≤ index ∧ index < paging.stop page)
    (second : min (paging.stop 1) length - paging.start 1 ≤ ⌊paging.size⌋₊) :
    paging.Fits length := by
  have hplain : ∀ index < length, ∃ page, paging.pointed page = false ∧
      page * paging.size ≤ index ∧ index < paging.stop page := by
    intro index hindex
    obtain ⟨page, hstart, hstop⟩ := selected index hindex
    cases hpoint : paging.pointed page with
    | true =>
        have hbefore := stop_pointed paging kind hpoint
        omega
    | false =>
        refine ⟨page, hpoint, ?_, hstop⟩
        rw [← start_plain paging kind hpoint]
        exact Nat.cast_le.mpr hstart
  simp only [Paging.Fits, kind]
  rcases Nat.eq_zero_or_pos length with hnone | hsome
  · exact .inl hnone
  obtain ⟨first, hfirst, hle, -⟩ := hplain 0 hsome
  have hzero : first = 0 := by
    by_contra hne
    have hpage : (0 : ℚ) < first := Nat.cast_pos.mpr (Nat.pos_of_ne_zero hne)
    have hproduct := mul_pos hpage paging.positive
    rw [Nat.cast_zero] at hle
    exact absurd hproduct (not_lt.mpr hle)
  subst hzero
  refine .inr ⟨hfirst, ?_⟩
  rcases Nat.lt_or_ge ⌊paging.size⌋₊ length with hmore | hfew
  · obtain ⟨page, hpoint, hle, hstop⟩ := hplain _ hmore
    -- the page that has the first ID behind the first page is the second one
    have hone : page = 1 := by
      rcases Nat.lt_trichotomy page 1 with hlt | heq | hgt
      · have hnil : page = 0 := by omega
        subst hnil
        simp only [Paging.stop, kind, hpoint, paging.start_zero,
          Bool.false_eq_true, if_false, Nat.zero_mul, Nat.zero_add] at hstop
        exact absurd hstop (Nat.lt_irrefl _)
      · exact heq
      · have htwo : (2 : ℚ) ≤ page := by exact_mod_cast hgt
        have hfloor := Nat.floor_le paging.positive.le
        have hpositive := paging.positive
        nlinarith
    subst hone
    have hstop := lt_stop paging kind hpoint
    rw [paging.start_one] at second
    exact .inr ⟨hpoint, by omega⟩
  · exact .inl hfew

end Bounds

theorem sorted_perm (ids : List String) : (sorted ids).Perm ids :=
  List.mergeSort_perm _ _

theorem sorted_sorted (ids : List String) : (sorted ids).Pairwise
    fun a b => unitsLe (codeUnits a) (codeUnits b) = true := by
  apply List.pairwise_mergeSort
  · intro a b c hab hbc
    exact unitsLe_trans hab hbc
  · intro a b
    rw [Bool.or_eq_true]
    exact unitsLe_total _ _

namespace Found

variable (found : Found)

theorem mem_combinedIds {id : String} :
    id ∈ found.combinedIds ↔ id ∈ found.active ∨ id ∈ found.inactive := by
  rw [combinedIds, List.mem_append, (sorted_perm _).mem_iff,
    (sorted_perm _).mem_iff]

theorem nodup_combinedIds : found.combinedIds.Nodup := by
  rw [combinedIds, List.nodup_append]
  refine ⟨(sorted_perm _).nodup_iff.mpr found.activeOnce,
    (sorted_perm _).nodup_iff.mpr found.inactiveOnce, ?_⟩
  rintro id hactive other hinactive rfl
  exact found.apart id ((sorted_perm _).mem_iff.mp hinactive)
    ((sorted_perm _).mem_iff.mp hactive)

def window (paging : Paging) (page : Nat) : List String :=
  (found.combinedIds.take (paging.stop page)).drop (paging.start page)

theorem page_eq (paging : Paging) (page : Nat) :
    found.page (some paging.limit) (some (paging.offset page)) =
      { paginatedActiveIds := (found.window paging page).filter fun id =>
          id ∈ found.active
        paginatedInactiveIds := (found.window paging page).filter fun id =>
          id ∈ found.inactive } := by
  have hlimit : orDefault (some paging.limit) 30 = paging.limit := by
    refine orDefault_of_ne 30 ?_
    rw [paging.limitValue]
    exact paging.positive.ne'
  simp only [Found.page, hlimit, orDefault_zero, toInteger_offset, plus_offset,
    slice_natCast]
  rfl

theorem mem_window_iff (paging : Paging) (page : Nat) (id : String) :
    id ∈ found.window paging page ↔
      id ∈ (found.window paging page).filter (fun id => id ∈ found.active) ∨
        id ∈ (found.window paging page).filter
          (fun id => id ∈ found.inactive) := by
  rw [List.mem_filter, List.mem_filter, decide_eq_true_iff,
    decide_eq_true_iff, ← and_or_left]
  refine ⟨fun h => ⟨h, ?_⟩, And.left⟩
  exact found.mem_combinedIds.mp
    (List.mem_of_mem_take (List.mem_of_mem_drop h))

theorem length_window_eq (paging : Paging) (page : Nat) :
    ((found.window paging page).filter fun id => id ∈ found.active).length +
      ((found.window paging page).filter
        fun id => id ∈ found.inactive).length =
      (found.window paging page).length := by
  have hrest : (found.window paging page).filter
        (fun id => id ∈ found.inactive) =
      (found.window paging page).filter
        fun id => !decide (id ∈ found.active) := by
    refine List.filter_congr fun id hid => ?_
    rcases found.mem_combinedIds.mp
        (List.mem_of_mem_take (List.mem_of_mem_drop hid)) with
      hactive | hinactive
    · have hother : id ∉ found.inactive := fun h => found.apart id h hactive
      simp [hactive, hother]
    · simp [hinactive, found.apart id hinactive]
  rw [hrest]
  exact (List.length_eq_length_filter_add _).symm

end Found

/-- The request for one of the pages. -/
def Paging.query (paging : Paging) (owner val : String) (page : Nat) :
    Query where
  owner := owner
  val := val
  limit := some paging.limit
  offset := some (paging.offset page)

/-- The IDs of both lists. -/
def Selected.ids (selected : Selected) : List String :=
  selected.paginatedActiveIds ++ selected.paginatedInactiveIds

/-- The pages are a partition of the result, which is the active IDs and then
the other ones, each sorted. -/
structure Partitioned (config : Config) (registry : Registry)
    (owner val : String) (paging : Paging) : Prop where
  activeSorted : (sorted (found config registry owner val).active).Pairwise
    fun a b => unitsLe (codeUnits a) (codeUnits b) = true
  inactiveSorted :
    (sorted (found config registry owner val).inactive).Pairwise
      fun a b => unitsLe (codeUnits a) (codeUnits b) = true
  once : ∀ id ∈ (found config registry owner val).combinedIds, ∃! page,
    id ∈ (search config registry (paging.query owner val page)).ids
  atMost : ∀ page, ((search config registry
    (paging.query owner val page)).ids.length : ℚ) ≤ paging.size
  activeInOrder : ∀ page, (search config registry
    (paging.query owner val page)).paginatedActiveIds.Sublist
      (sorted (found config registry owner val).active)
  inactiveInOrder : ∀ page, (search config registry
    (paging.query owner val page)).paginatedInactiveIds.Sublist
      (sorted (found config registry owner val).inactive)
  apart : ∀ page id,
    let selected := search config registry (paging.query owner val page)
    id ∈ selected.paginatedActiveIds → id ∉ selected.paginatedInactiveIds

section Partition

variable {config : Config} {registry : Registry} {owner val : String}

theorem found_empty : (found config registry owner "").combinedIds = [] := by
  have hactive : (found config registry owner "").active = [] := by
    simp [found, Found.ofLists, matrixDbPromise, addressbookPromise]
  have hinactive : (found config registry owner "").inactive = [] := by
    simp [found, Found.ofLists, userDbPromise]
  simp [Found.combinedIds, sorted, hactive, hinactive]

theorem search_query (paging : Paging) (page : Nat) :
    search config registry (paging.query owner val page) =
      { paginatedActiveIds :=
          ((found config registry owner val).window paging page).filter
            fun id => id ∈ (found config registry owner val).active
        paginatedInactiveIds :=
          ((found config registry owner val).window paging page).filter
            fun id => id ∈ (found config registry owner val).inactive } := by
  unfold search
  split
  · rename_i hempty
    have hval : val = "" := hempty
    rw [hval, Found.window, found_empty]
    simp
  · exact Found.page_eq _ paging page

theorem mem_search (paging : Paging) (page : Nat) (id : String) :
    id ∈ (search config registry (paging.query owner val page)).ids ↔
      id ∈ (found config registry owner val).window paging page := by
  rw [search_query, Selected.ids, List.mem_append]
  exact (Found.mem_window_iff _ paging page id).symm

theorem length_search (paging : Paging) (page : Nat) :
    (search config registry (paging.query owner val page)).ids.length =
      ((found config registry owner val).window paging page).length := by
  rw [search_query, Selected.ids, List.length_append]
  exact Found.length_window_eq _ paging page

theorem window_sublist (found : Found) (paging : Paging) (page : Nat) :
    (found.window paging page).Sublist found.combinedIds :=
  (List.drop_sublist _ _).trans (List.take_sublist _ _)

theorem window_active (found : Found) (paging : Paging) (page : Nat) :
    ((found.window paging page).filter
        fun id => id ∈ found.active).Sublist (sorted found.active) := by
  have hsublist := (window_sublist found paging page).filter
    fun id => decide (id ∈ found.active)
  have hactive : (sorted found.active).filter
      (fun id => id ∈ found.active) = sorted found.active :=
    List.filter_eq_self.mpr fun id hid =>
      decide_eq_true ((sorted_perm _).mem_iff.mp hid)
  have hinactive : (sorted found.inactive).filter
      (fun id => id ∈ found.active) = [] :=
    List.filter_eq_nil_iff.mpr fun id hid h =>
      found.apart id ((sorted_perm _).mem_iff.mp hid) (of_decide_eq_true h)
  rw [Found.combinedIds, List.filter_append, hactive, hinactive,
    List.append_nil] at hsublist
  exact hsublist

theorem window_inactive (found : Found) (paging : Paging) (page : Nat) :
    ((found.window paging page).filter
        fun id => id ∈ found.inactive).Sublist (sorted found.inactive) := by
  have hsublist := (window_sublist found paging page).filter
    fun id => decide (id ∈ found.inactive)
  have hinactive : (sorted found.inactive).filter
      (fun id => id ∈ found.inactive) = sorted found.inactive :=
    List.filter_eq_self.mpr fun id hid =>
      decide_eq_true ((sorted_perm _).mem_iff.mp hid)
  have hactive : (sorted found.active).filter
      (fun id => id ∈ found.inactive) = [] :=
    List.filter_eq_nil_iff.mpr fun id hid h =>
      found.apart id (of_decide_eq_true h) ((sorted_perm _).mem_iff.mp hid)
  rw [Found.combinedIds, List.filter_append, hactive, hinactive,
    List.nil_append] at hsublist
  exact hsublist

/-- Where a text fits, each page ends with the result or where the next one
starts, and is not too long. -/
theorem fits_text_page {paging : Paging} {numeral : Numeral}
    (kind : paging.limit = .text numeral) {length : Nat}
    (fits : paging.Fits length) (page : Nat) :
    (min (paging.stop page) length ≤ paging.start page ∧
        min (paging.start (page + 1)) length ≤ paging.start page ∨
      min (paging.stop page) length =
        min (paging.start (page + 1)) length) ∧
      min (paging.start (page + 1)) length - paging.start page ≤
        ⌊paging.size⌋₊ := by
  simp only [Paging.Fits, kind] at fits
  rcases fits with rfl | ⟨hfirst, hfits⟩
  · omega
  match page with
  | 0 =>
      have hstop : paging.stop 0 = ⌊paging.size⌋₊ := by
        simp [Paging.stop, kind, hfirst, paging.start_zero]
      rw [hstop, paging.start_one, paging.start_zero]
      omega
  | 1 =>
      have hnext := paging.multiple_le_start (1 + 1)
      rw [paging.start_one]
      rcases hfits with hfew | ⟨hsecond, htwice⟩
      · omega
      · have hstop := lt_stop paging kind hsecond
        omega
  | page + 2 =>
      have hstart := paging.multiple_le_start (page + 2)
      rw [Nat.add_mul] at hstart
      omega

/-- The pages of a result that fits follow one another. -/
theorem window_eq (found : Found) (paging : Paging)
    (fits : paging.Fits found.combinedIds.length) (page : Nat) :
    found.window paging page =
      (found.combinedIds.take (paging.start (page + 1))).drop
        (paging.start page) := by
  unfold Found.window
  cases hkind : paging.limit with
  | number n => simp only [Paging.stop, hkind]
  | text numeral =>
      rw [@List.take_eq_take_min _ _ (paging.stop page),
        @List.take_eq_take_min _ _ (paging.start (page + 1))]
      rcases (fits_text_page hkind fits page).1 with ⟨hstop, hnext⟩ | hsame
      · rw [List.drop_eq_nil_of_le ((List.length_take_le _ _).trans hstop),
          List.drop_eq_nil_of_le ((List.length_take_le _ _).trans hnext)]
      · rw [hsame]

theorem length_of_fits (found : Found) (paging : Paging)
    (fits : paging.Fits found.combinedIds.length) (page : Nat) :
    (found.window paging page).length ≤ ⌊paging.size⌋₊ := by
  rw [window_eq found paging fits, length_window]
  cases hkind : paging.limit with
  | number n =>
      simp only [Paging.Fits, hkind] at fits
      exact (windows_fit_iff paging.positive _).mpr fits page
  | text numeral => exact (fits_text_page hkind fits page).2

theorem fits_of_partitioned {paging : Paging}
    (partitioned : Partitioned config registry owner val paging) :
    paging.Fits (found config registry owner val).combinedIds.length := by
  have hlength : ∀ page, min (paging.stop page)
      (found config registry owner val).combinedIds.length -
        paging.start page ≤ ⌊paging.size⌋₊ := by
    intro page
    have hpage := partitioned.atMost page
    rw [length_search, Found.window, length_window] at hpage
    exact Nat.le_floor hpage
  cases hkind : paging.limit with
  | number n =>
      simp only [Paging.stop, hkind] at hlength
      simp only [Paging.Fits, hkind]
      exact (windows_fit_iff paging.positive _).mp hlength
  | text numeral =>
      refine fits_text paging hkind (fun index hindex => ?_) (hlength 1)
      obtain ⟨page, hpage, -⟩ := partitioned.once _ (List.getElem_mem hindex)
      refine ⟨page, ?_⟩
      rw [← mem_window (Found.nodup_combinedIds _)
        (List.getElem?_eq_getElem hindex)]
      exact (mem_search paging page _).mp hpage

end Partition

/-! An url-encoded search for three users, one on a page. -/

def Numeral.ofNat (n : Nat) : Numeral where
  whole := decimal n
  named := decimal_ne_nil n
  wholeDigits := decimal_digits n
  fractionDigits := rfl

theorem value_ofNat (n : Nat) : (Amount.text (.ofNat n)).value = n := by
  rw [Amount.value, (Numeral.ofNat n).value_plain rfl, Numeral.ofNat,
    digitsValue_decimal]

def urlencoded (size : Nat) (positive : 0 < size) : Paging where
  size := size
  positive := Nat.cast_pos.mpr positive
  limit := .text (.ofNat size)
  offset := fun page => .text (.ofNat (page * size))
  limitValue := value_ofNat size
  offsetValue := fun page => by rw [value_ofNat, Nat.cast_mul]
  alike := fun _ => rfl

def profile (userId : String) : ProfileRow := ⟨userId, none, none⟩

def sampleConfig : Config where
  enableAdditionalFeatures := false
  enableUserDirectory := true
  matrixEngine := .pg
  serverName := "example.org"
  addressbook := ⟨false, false, "", fun _ _ => .eq⟩

def sampleRegistry : Registry where
  profiles := [profile "anna", profile "anne", profile "anton"]
  users := ⟨.empty, []⟩
  addressbook := ⟨[], []⟩

end TwakeKickstart.TomServer.Search
