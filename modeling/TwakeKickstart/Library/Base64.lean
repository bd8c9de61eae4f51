import Mathlib.Data.List.Basic

namespace TwakeKickstart.Library.Base64

/-! Bytes as text in the base64 alphabet, padded to groups of four
characters. -/

def alphabet : List Char :=
  "ABCDEFGHIJKLMNOPQRSTUVWXYZabcdefghijklmnopqrstuvwxyz0123456789+/".toList

/-- The character for a number below 64. -/
def char (sextet : Nat) : Char :=
  alphabet.getD sextet '='

def sextet (c : Char) : Option Nat :=
  if alphabet.contains c then some (alphabet.idxOf c) else none

def encode : List UInt8 → List Char
  | [] => []
  | [a] => [char (a.toNat / 4), char (a.toNat % 4 * 16), '=', '=']
  | [a, b] =>
      [char (a.toNat / 4), char (a.toNat % 4 * 16 + b.toNat / 16),
        char (b.toNat % 16 * 4), '=']
  | a :: b :: c :: rest =>
      char (a.toNat / 4) :: char (a.toNat % 4 * 16 + b.toNat / 16) ::
        char (b.toNat % 16 * 4 + c.toNat / 64) :: char (c.toNat % 64) ::
          encode rest

/-! The three bytes of a group, from its four numbers. -/

def first (i j : Nat) : UInt8 :=
  UInt8.ofNat (i * 4 + j / 16)

def second (j k : Nat) : UInt8 :=
  UInt8.ofNat (j % 16 * 16 + k / 4)

def third (k l : Nat) : UInt8 :=
  UInt8.ofNat (k % 4 * 64 + l)

/-- `none` when the text is no sequence of groups, of which only the last may
be padded. -/
def decode : List Char → Option (List UInt8)
  | [] => some []
  | a :: b :: c :: d :: rest =>
      (sextet a).bind fun i => (sextet b).bind fun j =>
        if c = '=' ∧ d = '=' ∧ rest = [] then some [first i j]
        else
          (sextet c).bind fun k =>
            if d = '=' ∧ rest = [] then some [first i j, second j k]
            else
              (sextet d).bind fun l =>
                (decode rest).map fun bytes =>
                  first i j :: second j k :: third k l :: bytes
  | _ => none

/-- The text is filled up to whole groups. -/
def pad (text : List Char) : List Char :=
  text ++ List.replicate ((4 - text.length % 4) % 4) '='

theorem alphabet_eq : alphabet =
  ['A', 'B', 'C', 'D', 'E', 'F', 'G', 'H', 'I', 'J', 'K', 'L', 'M', 'N', 'O',
    'P', 'Q', 'R', 'S', 'T', 'U', 'V', 'W', 'X', 'Y', 'Z', 'a', 'b', 'c',
    'd', 'e', 'f', 'g', 'h', 'i', 'j', 'k', 'l', 'm', 'n', 'o', 'p', 'q',
    'r', 's', 't', 'u', 'v', 'w', 'x', 'y', 'z', '0', '1', '2', '3', '4',
    '5', '6', '7', '8', '9', '+', '/'] :=
  String.toList_ofList

theorem sextet_char {n : Nat} (h : n < 64) : sextet (char n) = some n := by
  have hall : ∀ n : Fin 64, sextet (char n) = some n.val := by
    unfold sextet char
    rw [alphabet_eq]
    decide +kernel
  exact hall ⟨n, h⟩

theorem char_ne_padding {n : Nat} (h : n < 64) : char n ≠ '=' := by
  intro hpadding
  have hsextet := sextet_char h
  have hnone : sextet '=' = none := by
    rw [sextet, alphabet_eq]
    decide
  rw [hpadding, hnone] at hsextet
  cases hsextet

section Bytes

variable (a b c : UInt8)

theorem first_eq {j : Nat} (high : j / 16 = a.toNat % 4) :
    first (a.toNat / 4) j = a := by
  have hsum : a.toNat / 4 * 4 + j / 16 = a.toNat := by omega
  rw [first, hsum, UInt8.ofNat_toNat]

theorem second_eq {j k : Nat} (low : j % 16 = b.toNat / 16)
    (high : k / 4 = b.toNat % 16) : second j k = b := by
  have hsum : j % 16 * 16 + k / 4 = b.toNat := by omega
  rw [second, hsum, UInt8.ofNat_toNat]

theorem third_eq {k : Nat} (low : k % 4 = c.toNat / 64) :
    third k (c.toNat % 64) = c := by
  have hsum : k % 4 * 64 + c.toNat % 64 = c.toNat := by omega
  rw [third, hsum, UInt8.ofNat_toNat]

end Bytes

theorem decode_encode (bytes : List UInt8) :
    decode (encode bytes) = some bytes := by
  induction bytes using encode.induct with
  | case1 => rfl
  | case2 a =>
      have ha := a.toNat_lt
      rw [encode, decode, sextet_char (by omega), sextet_char (by omega)]
      simp only [Option.bind_some, and_self, if_true]
      rw [first_eq a (by omega)]
  | case3 a b =>
      have ha := a.toNat_lt
      have hb := b.toNat_lt
      rw [encode, decode, sextet_char (by omega), sextet_char (by omega),
        sextet_char (by omega), Option.bind_some, Option.bind_some,
        if_neg fun h => char_ne_padding (by omega) h.1, Option.bind_some,
        if_pos ⟨rfl, rfl⟩, first_eq a (by omega),
        second_eq b (by omega) (by omega)]
  | case4 a b c rest ih =>
      have ha := a.toNat_lt
      have hb := b.toNat_lt
      have hc := c.toNat_lt
      rw [encode, decode, sextet_char (by omega), sextet_char (by omega),
        sextet_char (by omega), sextet_char (by omega), Option.bind_some,
        Option.bind_some, if_neg fun h => char_ne_padding (by omega) h.1,
        Option.bind_some, if_neg fun h => char_ne_padding (by omega) h.1,
        Option.bind_some, ih, Option.map_some, first_eq a (by omega),
        second_eq b (by omega) (by omega), third_eq c (by omega)]

theorem pad_encode (bytes : List UInt8) :
    pad (encode bytes) = encode bytes := by
  have hlength : (encode bytes).length % 4 = 0 := by
    induction bytes using encode.induct with
    | case1 => rfl
    | case2 a => simp [encode]
    | case3 a b => simp [encode]
    | case4 a b c rest ih =>
        rw [encode]
        simp only [List.length_cons]
        omega
  rw [pad, hlength]
  exact List.append_nil _

/-- The text without its padding. -/
def unpadded (text : List Char) : List Char :=
  (text.reverse.dropWhile (· == '=')).reverse

theorem unpadded_append {front : List Char} {last : Char} (h : last ≠ '=')
    (text : List Char) : unpadded (front ++ last :: text) =
      front ++ last :: unpadded text := by
  unfold unpadded
  rw [List.reverse_append, List.reverse_cons, List.append_assoc,
    List.singleton_append, List.dropWhile_append]
  cases hrest : text.reverse.dropWhile (· == '=') with
  | nil => simp [h]
  | cons c rest => simp

theorem pad_unpadded_encode (bytes : List UInt8) :
    pad (unpadded (encode bytes)) = encode bytes := by
  induction bytes using encode.induct with
  | case1 => rfl
  | case2 a =>
      have ha := a.toNat_lt
      have hlast := @char_ne_padding (a.toNat % 4 * 16) (by omega)
      have hcut := @unpadded_append [char (a.toNat / 4)] _ hlast ['=', '=']
      rw [encode]
      exact (congrArg pad hcut).trans rfl
  | case3 a b =>
      have hb := b.toNat_lt
      have hlast := @char_ne_padding (b.toNat % 16 * 4) (by omega)
      have hcut := @unpadded_append [char (a.toNat / 4),
        char (a.toNat % 4 * 16 + b.toNat / 16)] _ hlast ['=']
      rw [encode]
      exact (congrArg pad hcut).trans rfl
  | case4 a b c rest ih =>
      have hlast := @char_ne_padding (c.toNat % 64) (by omega)
      have hcut := @unpadded_append [char (a.toNat / 4),
        char (a.toNat % 4 * 16 + b.toNat / 16),
        char (b.toNat % 16 * 4 + c.toNat / 64)] _ hlast (encode rest)
      have hgroup (w x y z : Char) (text : List Char) :
          pad (w :: x :: y :: z :: text) = w :: x :: y :: z :: pad text := by
        have hlength : (w :: x :: y :: z :: text).length % 4 =
            text.length % 4 := by
          simp only [List.length_cons]
          omega
        rw [pad, hlength, pad]
        rfl
      rw [encode]
      refine (congrArg pad hcut).trans ((hgroup _ _ _ _ _).trans ?_)
      rw [ih]

theorem decode_unpadded_encode (bytes : List UInt8) :
    decode (pad (unpadded (encode bytes))) = some bytes := by
  rw [pad_unpadded_encode, decode_encode]

end TwakeKickstart.Library.Base64
