import TwakeKickstart.Library.Text

namespace TwakeKickstart.CalendarApp

open Library

/-! The list of delegates in a property of an event. -/

/-- The white space that the splitter of the server trims. -/
def isWhitespace (c : Char) : Bool :=
  c == ' ' || ('\t' ≤ c && c ≤ '\r') || c == '\u0085' || c == '\u00a0' ||
    c == '\u1680' || ('\u2000' ≤ c && c ≤ '\u200a') || c == '\u2028' ||
    c == '\u2029' || c == '\u202f' || c == '\u205f' || c == '\u3000'

def trimWith (space : Char → Bool) (text : List Char) : List Char :=
  ((text.dropWhile space).reverse.dropWhile space).reverse

/-- The texts between the commas. -/
def splitComma (text : List Char) : List (List Char) := text.splitOn ','

/-- `Splitter.on(',').trimResults().omitEmptyStrings()` -/
def splitToList (text : String) : List String :=
  (((splitComma text.toList).map (trimWith isWhitespace)).filter
    (· ≠ [])).map String.ofList

/-! What the splitter gives back. -/

theorem mem_of_mem_trimWith {space : Char → Bool} {text : List Char} {c : Char}
    (h : c ∈ trimWith space text) : c ∈ text := by
  rw [trimWith, List.mem_reverse] at h
  have hinner := List.dropWhile_subset space h
  rw [List.mem_reverse] at hinner
  exact List.dropWhile_subset space hinner

/-- A text that no trimming changes, and no splitting. -/
structure Whole (space : Char → Bool) (text : List Char) : Prop where
  first : ∃ c, text.head? = some c ∧ space c = false
  last : ∃ c, text.getLast? = some c ∧ space c = false
  noComma : ',' ∉ text

theorem dropWhile_eq_self {space : Char → Bool} {text : List Char} {c : Char}
    (hhead : text.head? = some c) (hc : space c = false) :
    text.dropWhile space = text := by
  obtain ⟨rest, rfl⟩ := List.head?_eq_some_iff.mp hhead
  exact List.dropWhile_cons_of_neg (by rw [hc]; exact Bool.false_ne_true)

namespace Whole

variable {space : Char → Bool} {text : List Char}

theorem trimWith_eq (whole : Whole space text) :
    trimWith space text = text := by
  obtain ⟨c, hhead, hc⟩ := whole.first
  obtain ⟨d, hlast, hd⟩ := whole.last
  rw [trimWith, dropWhile_eq_self hhead hc,
    dropWhile_eq_self (List.head?_reverse.trans hlast) hd,
    List.reverse_reverse]

theorem ne_nil (whole : Whole space text) : text ≠ [] := by
  rintro rfl
  obtain ⟨c, hhead, _⟩ := whole.first
  cases hhead

end Whole

theorem splitComma_joined {space : Char → Bool} {texts : List (List Char)}
    (nonempty : texts ≠ []) (whole : ∀ text ∈ texts, Whole space text) :
    (splitComma ([','].intercalate texts)).map (trimWith space) = texts := by
  rw [splitComma, List.splitOn_intercalate ','
    (fun text htext => (whole text htext).noComma) nonempty]
  exact (List.map_congr_left fun text htext =>
    (whole text htext).trimWith_eq).trans (List.map_id texts)

theorem noComma_of_mem_splitToList {text delegate : String}
    (h : delegate ∈ splitToList text) : ',' ∉ delegate.toList := by
  obtain ⟨piece, hpiece, rfl⟩ := List.mem_map.mp h
  obtain ⟨whole, hwhole, rfl⟩ := List.mem_map.mp (List.mem_of_mem_filter hpiece)
  rw [String.toList_ofList]
  exact fun hmem => not_mem_of_mem_splitOn hwhole (mem_of_mem_trimWith hmem)

end TwakeKickstart.CalendarApp
