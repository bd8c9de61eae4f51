import Mathlib.Data.List.Induction
import Mathlib.Algebra.Order.Ring.Nat
import Mathlib.Algebra.Ring.Nat
import Mathlib.Order.Basic

namespace TwakeKickstart.Library.Decimal

/-! Decimal numerals as lists of digits. -/

def value (digits : List Char) : Nat := Nat.ofDigitChars 10 digits 0

@[simp] theorem value_nil : value [] = 0 := rfl

theorem value_concat (digits : List Char) (c : Char) :
    value (digits ++ [c]) = 10 * value digits + (c.toNat - 48) := by
  rw [value, Nat.ofDigitChars_append, Nat.ofDigitChars_cons,
    Nat.ofDigitChars_nil]
  rfl

theorem isDigit_iff {c : Char} :
    c.isDigit = true ↔ 48 ≤ c.toNat ∧ c.toNat ≤ 57 := by
  simp only [Char.isDigit, ge_iff_le, Bool.and_eq_true, decide_eq_true_eq,
    UInt32.le_iff_toNat_le]
  exact Iff.rfl

theorem toNat_eq_zero_digit {c : Char} (h : c.toNat = 48) : c = '0' := by
  apply Char.ext
  exact UInt32.toNat_inj.mp h

theorem digitChar_of_isDigit {c : Char} (h : c.isDigit = true) :
    Nat.digitChar (c.toNat - 48) = c := by
  rw [isDigit_iff] at h
  have hall : ∀ n : Fin 10, Nat.digitChar n.val =
      Char.ofNat (n.val + 48) := by decide
  have hdigit := hall ⟨c.toNat - 48, by omega⟩
  rw [hdigit]
  dsimp only
  rw [Nat.sub_add_cancel h.1, Char.ofNat_toNat]

/-- A numeral of a number above zero: its first digit is no zero. -/
structure Numeral (digits : List Char) : Prop where
  nonempty : digits ≠ []
  all : ∀ c ∈ digits, c.isDigit = true
  lead : digits.head? ≠ some '0'

theorem toDigits_value {digits : List Char} (numeral : Numeral digits) :
    0 < value digits ∧ Nat.toDigits 10 (value digits) = digits := by
  induction digits using List.reverseRecOn with
  | nil => exact absurd rfl numeral.nonempty
  | append_singleton init c ih =>
      have hc := numeral.all c (List.mem_append_right _ List.mem_cons_self)
      have hrange := isDigit_iff.mp hc
      rw [value_concat]
      cases init with
      | nil =>
          have hzero : c.toNat ≠ 48 := by
            intro h
            rw [toNat_eq_zero_digit h] at numeral
            exact numeral.lead rfl
          have hvalue : 10 * value [] + (c.toNat - 48) = c.toNat - 48 := by
            rw [value_nil]
            omega
          rw [hvalue]
          constructor
          · omega
          · rw [Nat.toDigits_of_lt_base (by omega), digitChar_of_isDigit hc]
            rfl
      | cons first rest =>
          have hinit : Numeral (first :: rest) := by
            refine ⟨List.cons_ne_nil _ _, ?_, numeral.lead⟩
            intro other hother
            exact numeral.all other (List.mem_append_left _ hother)
          obtain ⟨hpositive, hdigits⟩ := ih hinit
          constructor
          · omega
          · rw [← Nat.toDigits_append_toDigits (by decide) hpositive (by omega),
              hdigits, Nat.toDigits_of_lt_base (by omega),
              digitChar_of_isDigit hc]

theorem numeral_toDigits {n : Nat} (positive : 0 < n) :
    Numeral (Nat.toDigits 10 n) := by
  refine ⟨Nat.toDigits_ne_nil, ?_, ?_⟩
  · intro c hc
    exact Nat.isDigit_of_mem_toDigits (by decide) (by decide) hc
  · induction n using Nat.strongRecOn with
    | ind n ih =>
        rw [Nat.toDigits_eq_if (by decide : 1 < 10)]
        split
        · rename_i hsmall
          have hall : ∀ n : Fin 10, 0 < n.val →
              [Nat.digitChar n.val].head? ≠ some '0' := by decide
          exact hall ⟨n, hsmall⟩ positive
        · have hdiv : 0 < n / 10 := by omega
          obtain ⟨first, rest, hdigits⟩ := List.exists_cons_of_ne_nil
            (Nat.toDigits_ne_nil : Nat.toDigits 10 (n / 10) ≠ [])
          have hlead := ih (n / 10) (by omega) hdiv
          rw [hdigits] at hlead ⊢
          exact hlead

theorem exists_toDigits_iff {digits : List Char} {most : Nat} :
    (∃ n, 1 ≤ n ∧ n ≤ most ∧ digits = Nat.toDigits 10 n) ↔
      Numeral digits ∧ value digits ≤ most := by
  constructor
  · rintro ⟨n, hpositive, hmost, rfl⟩
    refine ⟨numeral_toDigits hpositive, ?_⟩
    rw [value, Nat.ofDigitChars_ten_toDigits]
    exact hmost
  · rintro ⟨numeral, hmost⟩
    obtain ⟨hpositive, hdigits⟩ := toDigits_value numeral
    exact ⟨value digits, hpositive, hmost, hdigits.symm⟩

end TwakeKickstart.Library.Decimal

namespace TwakeKickstart.Library

/-! The doubles that are natural numbers, and infinity. -/

inductive Double where
  | finite (n : Nat)
  | infinity
  deriving DecidableEq

namespace Double

/-- The distance of the doubles around a number. -/
def unit (n : Nat) : Nat := 2 ^ (n.log2 - 52)

/-- The nearest number with 53 significant bits, and of two the even one. -/
def round (n : Nat) : Nat :=
  let low := n / unit n
  let rest := n % unit n
  (if unit n < 2 * rest ∨ (unit n = 2 * rest ∧ low % 2 = 1) then low + 1
    else low) * unit n

def ofNat (n : Nat) : Double :=
  if (round n).log2 < 1024 then .finite (round n) else .infinity

def add : Double → Double → Double
  | .finite a, .finite b => ofNat (a + b)
  | _, _ => .infinity

/-- The product with a number above zero. -/
def mul : Double → Nat → Double
  | .finite a, b => ofNat (a * b)
  | .infinity, _ => .infinity

theorem round_of_dvd {n : Nat} (h : unit n ∣ n) : round n = n := by
  have hrest : n % unit n = 0 := Nat.mod_eq_zero_of_dvd h
  have hunit : 0 < unit n := Nat.two_pow_pos _
  rw [round, hrest, if_neg (by omega), Nat.div_mul_cancel h]

theorem log2_mul_two_pow_lt {m : Nat} (k : Nat) (h : m < 2 ^ 53)
    (nonzero : m ≠ 0) : (m * 2 ^ k).log2 < 53 + k := by
  rw [Nat.log2_lt (Nat.mul_ne_zero nonzero (Nat.two_pow_pos k).ne'), pow_add]
  exact Nat.mul_lt_mul_of_pos_right h (Nat.two_pow_pos k)

theorem round_mul_two_pow {m : Nat} (k : Nat) (h : m < 2 ^ 53) :
    round (m * 2 ^ k) = m * 2 ^ k := by
  by_cases hzero : m = 0
  · rw [hzero, Nat.zero_mul]
    decide
  apply round_of_dvd
  have hlog := log2_mul_two_pow_lt k h hzero
  have hunit : unit (m * 2 ^ k) ∣ 2 ^ k := Nat.pow_dvd_pow 2 (by omega)
  exact hunit.trans (Nat.dvd_mul_left _ _)

theorem ofNat_mul_two_pow {m k : Nat} (h : m < 2 ^ 53) (hk : k < 971) :
    ofNat (m * 2 ^ k) = .finite (m * 2 ^ k) := by
  have hlog : (m * 2 ^ k).log2 < 1024 := by
    by_cases hzero : m = 0
    · rw [hzero, Nat.zero_mul]
      decide
    · have hlog := log2_mul_two_pow_lt k h hzero
      omega
  rw [ofNat, round_mul_two_pow k h, if_pos hlog]

theorem ofNat_of_lt {n : Nat} (h : n < 2 ^ 53) : ofNat n = .finite n := by
  have hnat := @ofNat_mul_two_pow n 0 h (by decide)
  rwa [pow_zero, Nat.mul_one] at hnat

theorem add_finite {a b : Nat} (h : a + b < 2 ^ 53) :
    add (.finite a) (.finite b) = .finite (a + b) :=
  ofNat_of_lt h

theorem mul_finite {a b : Nat} (h : a * b < 2 ^ 53) :
    mul (.finite a) b = .finite (a * b) :=
  ofNat_of_lt h

end Double

end TwakeKickstart.Library
