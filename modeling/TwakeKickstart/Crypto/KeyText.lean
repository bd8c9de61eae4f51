import Mathlib.Data.List.TakeWhile
import TwakeKickstart.Library.Text
import TwakeKickstart.Crypto.SignJson

namespace TwakeKickstart.Crypto

open Library

/-! Keys as texts: base64 in the alphabet of URLs, without its padding. -/

namespace KeyText

/-- `base64.replace(/=+$/, '').replace(/\//g, '_').replace(/\+/g, '-')` -/
def toBase64Url (base64 : List Char) : List Char :=
  let unpadded := Base64.unpadded base64
  let slashless := replaceAll ['/'] ['_'] unpadded
  replaceAll ['+'] ['-'] slashless

/-- `while (base64.length % 4 !== 0) base64 += '='`, and how often a character
is added. -/
def padLoop (base64 : List Char) : List Char × Nat :=
  if base64.length % 4 ≠ 0 then
    let padded := padLoop (base64 ++ ['='])
    (padded.1, padded.2 + 1)
  else (base64, 0)
termination_by (4 - base64.length % 4) % 4
decreasing_by
  rw [List.length_append, List.length_singleton]
  omega

/-- The text, and the additions of the padding loop. -/
def fromBase64Url (base64Url : List Char) : List Char × Nat :=
  let plus := replaceAll ['-'] ['+'] base64Url
  let slashes := replaceAll ['_'] ['/'] plus
  padLoop slashes

/-! The steps in one: they act on each character, and the loop adds what is
missing to a whole group. -/

def encodeChar (c : Char) : Char :=
  if c = '/' then '_' else if c = '+' then '-' else c

def decodeChar (c : Char) : Char :=
  if c = '-' then '+' else if c = '_' then '/' else c

theorem toBase64Url_eq (base64 : List Char) :
    toBase64Url base64 = (Base64.unpadded base64).map encodeChar := by
  rw [toBase64Url, replaceAll_single, replaceAll_single, List.map_map]
  apply List.map_congr_left
  intro c _
  by_cases hslash : c = '/'
  · simp [encodeChar, hslash]
  · simp [encodeChar, hslash]

theorem replaced_eq (base64Url : List Char) :
    replaceAll ['_'] ['/'] (replaceAll ['-'] ['+'] base64Url) =
      base64Url.map decodeChar := by
  rw [replaceAll_single, replaceAll_single, List.map_map]
  apply List.map_congr_left
  intro c _
  by_cases hminus : c = '-'
  · simp [decodeChar, hminus]
  · simp [decodeChar, hminus]

theorem padLoop_eq (base64 : List Char) :
    padLoop base64 = (Base64.pad base64, (4 - base64.length % 4) % 4) := by
  induction base64 using padLoop.induct with
  | case1 base64 h ih =>
      have hmissing : (4 - base64.length % 4) % 4 =
          (4 - (base64 ++ ['=']).length % 4) % 4 + 1 := by
        rw [List.length_append, List.length_singleton]
        omega
      rw [padLoop, if_pos h, ih, Base64.pad, Base64.pad, hmissing,
        List.append_assoc, List.replicate_succ]
      rfl
  | case2 base64 h =>
      have hwhole : base64.length % 4 = 0 := not_not.mp h
      rw [padLoop, if_neg h, Base64.pad, hwhole]
      simp

/-! Padded texts. -/

/-- Characters of the alphabet, filled up to whole groups of four. -/
structure Padded where
  body : List Char
  padding : Nat
  inAlphabet : ∀ c ∈ body, c ∈ Base64.alphabet
  padding_le : padding ≤ 2
  whole : (body.length + padding) % 4 = 0

namespace Padded

def text (padded : Padded) : List Char :=
  padded.body ++ List.replicate padded.padding '='

theorem exists_group {w x y z : Char}
    (inAlphabet : ∀ c ∈ [w, x, y, z], c ∈ Base64.alphabet)
    (padded : Padded) :
    ∃ longer : Padded, longer.text = w :: x :: y :: z :: padded.text := by
  refine ⟨⟨[w, x, y, z] ++ padded.body, padded.padding, ?_,
    padded.padding_le, ?_⟩, rfl⟩
  · intro c hc
    exact (List.mem_append.mp hc).elim (inAlphabet c) (padded.inAlphabet c)
  · have hwhole := padded.whole
    rw [List.length_append]
    simp only [List.length_cons, List.length_nil]
    omega

end Padded

theorem char_mem_alphabet {n : Nat} (h : n < 64) :
    Base64.char n ∈ Base64.alphabet := by
  have hlength : Base64.alphabet.length = 64 := by
    rw [Base64.alphabet_eq]
    rfl
  rw [Base64.char, List.getD_eq_getElem?_getD,
    List.getElem?_eq_getElem (hlength.symm ▸ h)]
  exact List.getElem_mem _

theorem exists_padded_encode (bytes : List UInt8) :
    ∃ padded : Padded, padded.text = Base64.encode bytes := by
  induction bytes using Base64.encode.induct with
  | case1 =>
      have hnil : ∀ c ∈ ([] : List Char), c ∈ Base64.alphabet :=
        fun c hc => absurd hc List.not_mem_nil
      exact ⟨⟨[], 0, hnil, by decide, rfl⟩, rfl⟩
  | case2 a =>
      have ha := a.toNat_lt
      refine ⟨⟨[_, _], 2, ?_, le_refl 2, by simp⟩, rfl⟩
      rw [List.forall_mem_cons, List.forall_mem_singleton]
      exact ⟨char_mem_alphabet (by omega), char_mem_alphabet (by omega)⟩
  | case3 a b =>
      have ha := a.toNat_lt
      have hb := b.toNat_lt
      refine ⟨⟨[_, _, _], 1, ?_, by decide, by simp⟩, rfl⟩
      rw [List.forall_mem_cons, List.forall_mem_cons, List.forall_mem_singleton]
      exact ⟨char_mem_alphabet (by omega), char_mem_alphabet (by omega),
        char_mem_alphabet (by omega)⟩
  | case4 a b c rest ih =>
      have ha := a.toNat_lt
      have hb := b.toNat_lt
      have hc := c.toNat_lt
      obtain ⟨padded, hpadded⟩ := ih
      rw [Base64.encode, ← hpadded]
      apply padded.exists_group
      rw [List.forall_mem_cons, List.forall_mem_cons, List.forall_mem_cons,
        List.forall_mem_singleton]
      exact ⟨char_mem_alphabet (by omega), char_mem_alphabet (by omega),
        char_mem_alphabet (by omega), char_mem_alphabet (by omega)⟩

theorem encodeChar_spec {c : Char} (h : c ∈ Base64.alphabet) :
    decodeChar (encodeChar c) = c ∧ encodeChar c ≠ '+' ∧
      encodeChar c ≠ '/' ∧ encodeChar c ≠ '=' := by
  have hother (other : Char) (hnot : other ∉ Base64.alphabet) : c ≠ other :=
    fun heq => hnot (heq ▸ h)
  by_cases hslash : c = '/'
  · subst c
    decide +kernel
  by_cases hplus : c = '+'
  · subst c
    decide +kernel
  · have hsame : encodeChar c = c := by
      rw [encodeChar, if_neg hslash, if_neg hplus]
    have hback : decodeChar c = c := by
      rw [decodeChar, if_neg (hother '-' (by rw [Base64.alphabet_eq]; decide)),
        if_neg (hother '_' (by rw [Base64.alphabet_eq]; decide))]
    rw [hsame]
    exact ⟨hback, hplus, hslash,
      hother '=' (by rw [Base64.alphabet_eq]; decide)⟩

theorem unpadded_text (padded : Padded) :
    Base64.unpadded padded.text = padded.body := by
  have hbody : '=' ∉ padded.body := fun hmem =>
    absurd (padded.inAlphabet '=' hmem) (by rw [Base64.alphabet_eq]; decide)
  have hstop : padded.body.reverse.dropWhile (· == '=') =
      padded.body.reverse := by
    rw [List.dropWhile_eq_self_iff]
    intro hlength hfirst
    have hmem := List.getElem_mem hlength
    rw [beq_iff_eq.mp hfirst, List.mem_reverse] at hmem
    exact hbody hmem
  rw [Base64.unpadded, Padded.text, List.reverse_append, List.reverse_replicate,
    List.dropWhile_append_of_pos, hstop, List.reverse_reverse]
  intro c hc
  exact beq_iff_eq.mpr (List.eq_of_mem_replicate hc)

theorem toBase64Url_text (padded : Padded) :
    toBase64Url padded.text = padded.body.map encodeChar := by
  rw [toBase64Url_eq, unpadded_text]

/-- The characters are changed back, and the loop adds the padding that was
dropped. -/
theorem fromBase64Url_toBase64Url (padded : Padded) :
    fromBase64Url (toBase64Url padded.text) =
      (padded.text, padded.padding) := by
  have hback : (padded.body.map encodeChar).map decodeChar = padded.body := by
    rw [List.map_map]
    refine (List.map_congr_left fun c hc => ?_).trans (List.map_id _)
    exact (encodeChar_spec (padded.inAlphabet c hc)).1
  have hmissing : (4 - padded.body.length % 4) % 4 = padded.padding := by
    have hle := padded.padding_le
    have hwhole := padded.whole
    omega
  rw [fromBase64Url, replaced_eq, toBase64Url_text, hback, padLoop_eq,
    Base64.pad, hmissing]
  rfl

theorem decode_fromBase64Url (bytes : List UInt8) :
    Base64.decode (fromBase64Url (toBase64Url (Base64.encode bytes))).1 =
      some bytes := by
  obtain ⟨padded, hpadded⟩ := exists_padded_encode bytes
  rw [← hpadded, fromBase64Url_toBase64Url, hpadded, Base64.decode_encode]

/-- The bytes of a key come back from its text, different padded texts stay
different, and what is written has no character that the alphabet of URLs
leaves out. -/
theorem base64Url_round_trip :
    (∀ bytes, Base64.decode
      (fromBase64Url (toBase64Url (Base64.encode bytes))).1 = some bytes) ∧
    (∀ first second : Padded,
      toBase64Url first.text = toBase64Url second.text →
        first.text = second.text) ∧
    ∀ padded : Padded,
      (∀ c ∈ toBase64Url padded.text, c ≠ '+' ∧ c ≠ '/' ∧ c ≠ '=') ∧
      (fromBase64Url (toBase64Url padded.text)).2 ≤ 2 := by
  refine ⟨fun bytes => ?_, fun first second h => ?_, fun padded => ⟨?_, ?_⟩⟩
  · exact decode_fromBase64Url bytes
  · have hfirst := fromBase64Url_toBase64Url first
    have hsecond := fromBase64Url_toBase64Url second
    rw [h, hsecond] at hfirst
    exact (congrArg Prod.fst hfirst).symm
  · rw [toBase64Url_text, List.forall_mem_map]
    exact fun c hc => (encodeChar_spec (padded.inAlphabet c hc)).2
  · rw [fromBase64Url_toBase64Url]
    exact padded.padding_le

end KeyText

end TwakeKickstart.Crypto
