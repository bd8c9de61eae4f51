import Mathlib.Data.List.Basic

namespace TwakeKickstart.Library

/-! Internet addresses, the texts in which a socket reports them, and networks.
An IPv4 address is placed among the IPv6 ones by its IPv4-mapped form. -/

namespace Ip

def mapped (address : BitVec 32) : BitVec 128 := (0xffff : BitVec 96) ++ address

/-- The last 32 bits. -/
def embedded (address : BitVec 128) : BitVec 32 := address.extractLsb' 0 32

def upper (address : BitVec 128) : BitVec 96 := address.extractLsb' 32 96

@[simp] theorem embedded_mapped (address : BitVec 32) :
    embedded (mapped address) = address :=
  BitVec.extractLsb'_append_eq_right

@[simp] theorem upper_mapped (address : BitVec 32) :
    upper (mapped address) = 0xffff :=
  BitVec.extractLsb'_append_eq_left

structure Network where
  address : BitVec 128
  length : Nat
  length_le : length ≤ 128

namespace Network

def Contains (network : Network) (address : BitVec 128) : Prop :=
  address >>> (128 - network.length) =
    network.address >>> (128 - network.length)

instance (network : Network) (address : BitVec 128) :
    Decidable (network.Contains address) :=
  inferInstanceAs (Decidable (_ = _))

def isInSubnet (inner outer : Network) : Bool :=
  decide (outer.length ≤ inner.length) && decide (outer.Contains inner.address)

def host (address : BitVec 128) : Network := ⟨address, 128, Nat.le_refl 128⟩

theorem host_isInSubnet (address : BitVec 128) (outer : Network) :
    (host address).isInSubnet outer = true ↔ outer.Contains address := by
  unfold isInSubnet
  rw [Bool.and_eq_true, decide_eq_true_iff, decide_eq_true_iff]
  exact and_iff_right outer.length_le

end Network

/-! The texts of addresses. -/

def octet (address : BitVec 32) (index : Nat) : String :=
  (address.extractLsb' (24 - 8 * index) 8).toNat.repr

def inetNtop4 (address : BitVec 32) : String :=
  octet address 0 ++ "." ++ octet address 1 ++ "." ++ octet address 2 ++ "." ++
    octet address 3

def group (address : BitVec 128) (index : Nat) : BitVec 16 :=
  address.extractLsb' (112 - 16 * index) 16

def groups (address : BitVec 128) : List (BitVec 16) :=
  (List.range 8).map (group address)

def groupText (group : BitVec 16) : String :=
  String.ofList (Nat.toDigits 16 group.toNat)

def groupsText (groups : List (BitVec 16)) : String :=
  ":".intercalate (groups.map groupText)

/-- The first one of the longest runs of zeros, as its start and length. -/
def longestZeros : List (BitVec 16) → Nat → Nat × Nat → Nat × Nat
  | [], _, best => best
  | group :: rest, start, best =>
      let run := ((group :: rest).takeWhile (· == 0)).length
      longestZeros rest (start + 1)
        (if best.2 < run then (start, run) else best)

def hexText (groups : List (BitVec 16)) : String :=
  let (start, run) := longestZeros groups 0 (0, 0)
  if run < 2 then groupsText groups
  else
    groupsText (groups.take start) ++ "::" ++
      groupsText (groups.drop (start + run))

/-- The IPv4-mapped and the IPv4-compatible addresses are written with a dotted
end. -/
def WrittenDotted (address : BitVec 128) : Prop :=
  upper address = 0xffff ∨ upper address = 0 ∧ group address 6 ≠ 0

instance (address : BitVec 128) : Decidable (WrittenDotted address) :=
  inferInstanceAs (Decidable (_ ∨ _))

def inetNtop6 (address : BitVec 128) : String :=
  if WrittenDotted address then
    (if upper address = 0 then ":" else "::ffff") ++ ":" ++
      inetNtop4 (embedded address)
  else hexText (groups address)

def LinkLocal (address : BitVec 128) : Prop :=
  address.extractLsb' 118 10 = 0x3fa

instance (address : BitVec 128) : Decidable (LinkLocal address) :=
  inferInstanceAs (Decidable (_ = _))

/-- The name of a network interface. -/
abbrev Zone := { name : String // ':' ∉ name.toList }

inductive Remote where
  | v4 (address : BitVec 32)
  | v6 (address : BitVec 128) (zone : Option Zone)

namespace Remote

/-- The text that a socket reports. -/
def text : Remote → String
  | v4 address => inetNtop4 address
  | v6 address zone =>
      match zone with
      | some name =>
          if LinkLocal address then inetNtop6 address ++ "%" ++ name.val
          else inetNtop6 address
      | none => inetNtop6 address

def address : Remote → BitVec 128
  | v4 address => mapped address
  | v6 address _ => address

end Remote

/-! The characters of the texts. -/

theorem mem_octet {address : BitVec 32} {index : Nat} {c : Char}
    (h : c ∈ (octet address index).toList) : c.isDigit = true := by
  rw [octet, Nat.toList_repr] at h
  exact Nat.isDigit_of_mem_toDigits (by decide) (by decide) h

theorem mem_inetNtop4 {address : BitVec 32} {c : Char}
    (h : c ∈ (inetNtop4 address).toList) : c.isDigit = true ∨ c = '.' := by
  simp only [inetNtop4, String.toList_append, List.mem_append,
    show ".".toList = ['.'] from rfl, List.mem_singleton] at h
  rcases h with (((((hc | hc) | hc) | hc) | hc) | hc) | hc
  · exact .inl (mem_octet hc)
  · exact .inr hc
  · exact .inl (mem_octet hc)
  · exact .inr hc
  · exact .inl (mem_octet hc)
  · exact .inr hc
  · exact .inl (mem_octet hc)

theorem colon_not_mem_inetNtop4 (address : BitVec 32) :
    ':' ∉ (inetNtop4 address).toList := by
  intro h
  rcases mem_inetNtop4 h with hdigit | hdot
  · exact absurd hdigit (by decide)
  · exact absurd hdot (by decide)

theorem digitChar_ne_dot : ∀ digit < 16, Nat.digitChar digit ≠ '.' := by
  decide

theorem dot_not_mem_toDigits (n : Nat) : '.' ∉ Nat.toDigits 16 n := by
  induction n using Nat.strongRecOn with
  | ind n ih =>
      rw [Nat.toDigits_eq_if (by decide)]
      split
      · rename_i hlt
        rw [List.mem_singleton]
        exact (digitChar_ne_dot n hlt).symm
      · rename_i hle
        rw [List.mem_append, List.mem_singleton, not_or]
        refine ⟨ih (n / 16) (by omega), ?_⟩
        exact (digitChar_ne_dot (n % 16) (by omega)).symm

theorem dot_not_mem_groupsText (groups : List (BitVec 16)) :
    '.' ∉ (groupsText groups).toList := by
  unfold groupsText
  induction groups with
  | nil => simp
  | cons group rest ih =>
      have hgroup : '.' ∉ (groupText group).toList := by
        rw [groupText, String.toList_ofList]
        exact dot_not_mem_toDigits _
      cases rest with
      | nil => simpa using hgroup
      | cons next rest =>
          rw [List.map_cons, List.map_cons, String.intercalate_cons_cons,
            String.toList_append, String.toList_append, List.mem_append,
            List.mem_append, not_or, not_or]
          exact ⟨⟨hgroup, by decide⟩, ih⟩

theorem dot_not_mem_hexText (groups : List (BitVec 16)) :
    '.' ∉ (hexText groups).toList := by
  simp only [hexText]
  split
  · exact dot_not_mem_groupsText groups
  · rw [String.toList_append, String.toList_append, List.mem_append,
      List.mem_append, not_or, not_or]
    exact ⟨⟨dot_not_mem_groupsText _, by decide⟩, dot_not_mem_groupsText _⟩

theorem upper_of_linkLocal {address : BitVec 128} (h : LinkLocal address) :
    (upper address).extractLsb' 86 10 = 0x3fa := by
  rw [← h]
  ext i hi
  simp only [upper, BitVec.getElem_extractLsb', BitVec.getLsbD_extractLsb']
  rw [decide_eq_true (by omega), Bool.true_and, ← Nat.add_assoc]

theorem not_writtenDotted_of_linkLocal {address : BitVec 128}
    (h : LinkLocal address) : ¬ WrittenDotted address := by
  have hupper := upper_of_linkLocal h
  rintro (hmapped | ⟨hzero, _⟩)
  · rw [hmapped] at hupper
    exact absurd hupper (by decide)
  · rw [hzero] at hupper
    exact absurd hupper (by decide)

theorem mapped_of_upper {address : BitVec 128} (h : upper address = 0xffff) :
    mapped (embedded address) = address := by
  rw [mapped, ← h]
  exact BitVec.extractLsb'_append_extractLsb'

/-! The text after the last colon. -/

def lastSegment (text : List Char) : List Char :=
  (text.splitOn ':').getLastD []

theorem lastSegment_of_not_mem {text : List Char} (h : ':' ∉ text) :
    lastSegment text = text := by
  rw [lastSegment, List.splitOn_eq_singleton h]
  rfl

theorem lastSegment_append (front : List Char) {last : List Char}
    (h : ':' ∉ last) : lastSegment (front ++ ':' :: last) = last := by
  rw [lastSegment, List.splitOn_append_cons_self,
    List.splitOn_eq_singleton h]
  simp

theorem cut_cases (text : List Char) :
    ':' ∉ text ∨ ∃ front last, text = front ++ ':' :: last ∧ ':' ∉ last := by
  induction text with
  | nil => exact .inl List.not_mem_nil
  | cons c rest ih =>
      rcases ih with hnone | ⟨front, last, hrest, hlast⟩
      · by_cases hc : c = ':'
        · exact .inr ⟨[], rest, by rw [hc]; rfl, hnone⟩
        · refine .inl ?_
          rw [List.mem_cons, not_or]
          exact ⟨fun h => hc h.symm, hnone⟩
      · exact .inr ⟨c :: front, last, by rw [hrest]; rfl, hlast⟩

theorem colon_not_mem_lastSegment (text : List Char) :
    ':' ∉ lastSegment text := by
  rcases cut_cases text with hnone | ⟨front, last, rfl, hlast⟩
  · rw [lastSegment_of_not_mem hnone]
    exact hnone
  · rw [lastSegment_append front hlast]
    exact hlast

theorem mem_of_mem_lastSegment {text : List Char} {c : Char}
    (h : c ∈ lastSegment text) : c ∈ text := by
  rcases cut_cases text with hnone | ⟨front, last, rfl, hlast⟩
  · rw [lastSegment_of_not_mem hnone] at h
    exact h
  · rw [lastSegment_append front hlast] at h
    exact List.mem_append_right _ (List.mem_cons_of_mem _ h)

theorem lastSegment_append_of_not_mem (text : List Char) {last : List Char}
    (h : ':' ∉ last) :
    lastSegment (text ++ last) = lastSegment text ++ last := by
  rcases cut_cases text with hnone | ⟨front, rest, rfl, hrest⟩
  · rw [lastSegment_of_not_mem hnone, lastSegment_of_not_mem]
    rw [List.mem_append, not_or]
    exact ⟨hnone, h⟩
  · rw [lastSegment_append front hrest, List.append_assoc, List.cons_append,
      lastSegment_append]
    rw [List.mem_append, not_or]
    exact ⟨hrest, h⟩

theorem lastSegment_inetNtop4 (address : BitVec 32) :
    lastSegment (inetNtop4 address).toList = (inetNtop4 address).toList :=
  lastSegment_of_not_mem (colon_not_mem_inetNtop4 address)

theorem lastSegment_dotted {address : BitVec 128}
    (h : WrittenDotted address) :
    lastSegment (inetNtop6 address).toList =
      (inetNtop4 (embedded address)).toList := by
  rw [inetNtop6, if_pos h, String.toList_append, String.toList_append,
    show ":".toList = [':'] from rfl, List.append_assoc]
  exact lastSegment_append _ (colon_not_mem_inetNtop4 _)

theorem dot_not_mem_inetNtop6 {address : BitVec 128}
    (h : ¬ WrittenDotted address) : '.' ∉ (inetNtop6 address).toList := by
  rw [inetNtop6, if_neg h]
  exact dot_not_mem_hexText _

end Ip

end TwakeKickstart.Library
