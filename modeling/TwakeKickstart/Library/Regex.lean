import Mathlib.Data.List.Basic

namespace TwakeKickstart.Library

/-! Regular expressions over characters, anchored at both ends of the text and
decided by derivatives.  A bounded run of one character class is primitive, so
that `{6,255}` costs no more than `+`. -/

inductive Regex where
  | empty
  | epsilon
  | run (accepted : Char → Bool) (least : Nat) (most : Option Nat)
  | seq (first second : Regex)
  | alt (left right : Regex)
  | star (body : Regex)

namespace Regex

def literal (c : Char) : Regex := run (· == c) 1 (some 1)

def one (accepted : Char → Bool) : Regex := run accepted 1 (some 1)

def many (accepted : Char → Bool) : Regex := run accepted 0 none

def some1 (accepted : Char → Bool) : Regex := run accepted 1 none

def optional (body : Regex) : Regex := alt body epsilon

def sequence : List Regex → Regex
  | [] => epsilon
  | [last] => last
  | first :: rest => seq first (sequence rest)

def exactly (times : Nat) (body : Regex) : Regex :=
  sequence (List.replicate times body)

def atMost : Nat → Regex → Regex
  | 0, _ => epsilon
  | times + 1, body => optional (seq body (atMost times body))

def between (least most : Nat) (body : Regex) : Regex :=
  seq (exactly least body) (atMost (most - least) body)

def anyOf : List Regex → Regex
  | [] => empty
  | [last] => last
  | first :: rest => alt first (anyOf rest)

def literals (text : String) : Regex :=
  sequence (text.toList.map literal)

inductive Matches : Regex → List Char → Prop
  | epsilon : Matches epsilon []
  | run {accepted : Char → Bool} {least : Nat} {most : Option Nat}
      {text : List Char} (all : ∀ c ∈ text, accepted c = true)
      (lower : least ≤ text.length)
      (upper : ∀ bound, most = some bound → text.length ≤ bound) :
      Matches (run accepted least most) text
  | seq {first second : Regex} {head tail : List Char}
      (matchesFirst : Matches first head)
      (matchesSecond : Matches second tail) :
      Matches (seq first second) (head ++ tail)
  | altLeft {left right : Regex} {text : List Char}
      (matchesLeft : Matches left text) : Matches (alt left right) text
  | altRight {left right : Regex} {text : List Char}
      (matchesRight : Matches right text) : Matches (alt left right) text
  | starNil {body : Regex} : Matches (star body) []
  | starCons {body : Regex} {head tail : List Char}
      (matchesBody : Matches body head)
      (matchesRest : Matches (star body) tail) :
      Matches (star body) (head ++ tail)

def nullable : Regex → Bool
  | empty => false
  | epsilon => true
  | run _ least _ => least == 0
  | seq first second => first.nullable && second.nullable
  | alt left right => left.nullable || right.nullable
  | star _ => true

/-! Constructors without the dead branches that derivatives leave behind. -/

def pruneSeq : Regex → Regex → Regex
  | empty, _ => empty
  | first, second => seq first second

def pruneAlt : Regex → Regex → Regex
  | empty, right => right
  | left, empty => left
  | left, right => alt left right

def derivative (c : Char) : Regex → Regex
  | empty => empty
  | epsilon => empty
  | run accepted least most =>
      if accepted c = true ∧ most ≠ some 0 then
        run accepted (least - 1) (most.map (· - 1))
      else empty
  | seq first second =>
      if first.nullable then
        pruneAlt (pruneSeq (first.derivative c) second) (second.derivative c)
      else pruneSeq (first.derivative c) second
  | alt left right => pruneAlt (left.derivative c) (right.derivative c)
  | star body => pruneSeq (body.derivative c) (star body)

def acceptsList (expression : Regex) : List Char → Bool
  | [] => expression.nullable
  | c :: rest => (expression.derivative c).acceptsList rest

/-- `RegExp.prototype.test` for an expression anchored by `^` and `$`. -/
def test (expression : Regex) (text : String) : Bool :=
  expression.acceptsList text.toList

theorem matches_nil_of_nullable {expression : Regex}
    (h : expression.nullable = true) : Matches expression [] := by
  induction expression with
  | empty => simp [nullable] at h
  | epsilon => exact .epsilon
  | run accepted least most =>
      have hleast : least = 0 := by simpa [nullable] using h
      exact .run (by simp) (by simp [hleast]) (by simp)
  | seq first second ihFirst ihSecond =>
      simp only [nullable, Bool.and_eq_true] at h
      exact .seq (ihFirst h.1) (ihSecond h.2)
  | alt left right ihLeft ihRight =>
      simp only [nullable, Bool.or_eq_true] at h
      cases h with
      | inl h => exact .altLeft (ihLeft h)
      | inr h => exact .altRight (ihRight h)
  | star body _ => exact .starNil

theorem matches_of_pruneSeq {first second : Regex} {text : List Char}
    (h : Matches (pruneSeq first second) text) :
    Matches (seq first second) text := by
  unfold pruneSeq at h
  split at h
  · cases h
  · exact h

theorem matches_of_pruneAlt {left right : Regex} {text : List Char}
    (h : Matches (pruneAlt left right) text) :
    Matches (alt left right) text := by
  unfold pruneAlt at h
  split at h
  · exact .altRight h
  · exact .altLeft h
  · exact h

theorem matches_cons_of_derivative {expression : Regex} {c : Char}
    {text : List Char} (h : Matches (expression.derivative c) text) :
    Matches expression (c :: text) := by
  induction expression generalizing text with
  | empty => cases h
  | epsilon => cases h
  | run accepted least most =>
      unfold derivative at h
      split at h
      · rename_i hguard
        cases h with
        | run all lower upper =>
            refine .run ?_ ?_ ?_
            · simpa using ⟨hguard.1, all⟩
            · simp only [List.length_cons]
              omega
            · intro bound hbound
              have := upper (bound - 1) (by simp [hbound])
              have hpositive : bound ≠ 0 := by
                rintro rfl
                exact hguard.2 hbound
              simp only [List.length_cons]
              omega
      · cases h
  | seq first second ihFirst ihSecond =>
      unfold derivative at h
      split at h
      · rename_i hnullable
        cases matches_of_pruneAlt h with
        | altLeft h =>
            cases matches_of_pruneSeq h with
            | seq hfirst hsecond => exact .seq (ihFirst hfirst) hsecond
        | altRight h =>
            exact .seq (matches_nil_of_nullable hnullable) (ihSecond h)
      · cases matches_of_pruneSeq h with
        | seq hfirst hsecond => exact .seq (ihFirst hfirst) hsecond
  | alt left right ihLeft ihRight =>
      cases matches_of_pruneAlt h with
      | altLeft h => exact .altLeft (ihLeft h)
      | altRight h => exact .altRight (ihRight h)
  | star body ih =>
      cases matches_of_pruneSeq h with
      | seq hbody hrest => exact .starCons (ih hbody) hrest

theorem matches_of_acceptsList {expression : Regex} {text : List Char}
    (h : expression.acceptsList text = true) : Matches expression text := by
  induction text generalizing expression with
  | nil => exact matches_nil_of_nullable h
  | cons c rest ih => exact matches_cons_of_derivative (ih h)

theorem matches_of_test {expression : Regex} {text : String}
    (h : expression.test text = true) : Matches expression text.toList :=
  matches_of_acceptsList h

theorem matches_sequence_cons {first second : Regex} {rest : List Regex}
    {text : List Char} (h : Matches (sequence (first :: second :: rest)) text) :
    ∃ head tail, text = head ++ tail ∧ Matches first head ∧
      Matches (sequence (second :: rest)) tail := by
  cases h with
  | seq hfirst hrest => exact ⟨_, _, rfl, hfirst, hrest⟩

theorem matches_literal {c : Char} {text : List Char}
    (h : Matches (literal c) text) : text = [c] := by
  cases h with
  | run all lower upper =>
      have hlength : text.length = 1 :=
        Nat.le_antisymm (upper 1 rfl) lower
      obtain ⟨only, rfl⟩ := List.length_eq_one_iff.mp hlength
      have := all only (by simp)
      simpa using this

/-- No character class of the expression has the character. -/
def rejects (c : Char) : Regex → Bool
  | empty => true
  | epsilon => true
  | run accepted _ _ => !accepted c
  | seq first second => first.rejects c && second.rejects c
  | alt left right => left.rejects c && right.rejects c
  | star body => body.rejects c

theorem not_mem_of_rejects {expression : Regex} {c : Char} {text : List Char}
    (matched : Matches expression text)
    (rejected : expression.rejects c = true) : c ∉ text := by
  induction matched with
  | epsilon => exact List.not_mem_nil
  | run all lower upper =>
      intro hc
      simp [rejects, all c hc] at rejected
  | seq _ _ ihFirst ihSecond =>
      simp only [rejects, Bool.and_eq_true] at rejected
      rw [List.mem_append, not_or]
      exact ⟨ihFirst rejected.1, ihSecond rejected.2⟩
  | altLeft _ ih =>
      simp only [rejects, Bool.and_eq_true] at rejected
      exact ih rejected.1
  | altRight _ ih =>
      simp only [rejects, Bool.and_eq_true] at rejected
      exact ih rejected.2
  | starNil => exact List.not_mem_nil
  | starCons _ _ ihBody ihRest =>
      rw [List.mem_append, not_or]
      exact ⟨ihBody rejected, ihRest rejected⟩

end Regex

def isWordChar (c : Char) : Bool :=
  c.isAlphanum || c == '_'

/-- The class `\s`: white space and line terminators of the language. -/
def isSpaceChar (c : Char) : Bool :=
  c == ' ' || ('\t' ≤ c && c ≤ '\r') || c == '\u00a0' || c == '\u1680' ||
    ('\u2000' ≤ c && c ≤ '\u200a') || c == '\u2028' || c == '\u2029' ||
    c == '\u202f' || c == '\u205f' || c == '\u3000' || c == '\ufeff'

def isLineTerminator (c : Char) : Bool :=
  c == '\n' || c == '\r' || c == '\u2028' || c == '\u2029'

end TwakeKickstart.Library
