import Mathlib.Data.List.Basic

namespace TwakeKickstart.Library

/-! The UTF-8 decoder that replaces what is malformed: one replacement character
for each longest part of a sequence that could not be completed. -/

namespace Utf8

def replacement : Char := '\uFFFD'

/-- A sequence that has begun: what its next byte may be, how many bytes are
still needed and the bits read so far. -/
structure Pending where
  lower : Nat
  upper : Nat
  needed : Nat
  bits : Nat

def Pending.Continues (pending : Pending) (byte : UInt8) : Prop :=
  pending.lower ≤ byte.toNat ∧ byte.toNat ≤ pending.upper

instance (pending : Pending) (byte : UInt8) :
    Decidable (pending.Continues byte) :=
  inferInstanceAs (Decidable (_ ∧ _))

/-- The first byte of a sequence. -/
def lead (byte : UInt8) : List Char × Option Pending :=
  let b := byte.toNat
  if b < 0x80 then ([Char.ofNat b], none)
  else if b < 0xC2 then ([replacement], none)
  else if b < 0xE0 then ([], some ⟨0x80, 0xBF, 1, b - 0xC0⟩)
  else if b < 0xF0 then
    ([], some ⟨if b = 0xE0 then 0xA0 else 0x80,
      if b = 0xED then 0x9F else 0xBF, 2, b - 0xE0⟩)
  else if b < 0xF5 then
    ([], some ⟨if b = 0xF0 then 0x90 else 0x80,
      if b = 0xF4 then 0x8F else 0xBF, 3, b - 0xF0⟩)
  else ([replacement], none)

def step : Option Pending → UInt8 → List Char × Option Pending
  | none, byte => lead byte
  | some pending, byte =>
      if pending.Continues byte then
        let bits := pending.bits * 64 + (byte.toNat - 0x80)
        if pending.needed ≤ 1 then ([Char.ofNat bits], none)
        else ([], some ⟨0x80, 0xBF, pending.needed - 1, bits⟩)
      else (replacement :: (lead byte).1, (lead byte).2)

/-- The end of the input. -/
def flush : Option Pending → List Char
  | none => []
  | some _ => [replacement]

def run : Option Pending → List UInt8 → List Char
  | state, [] => flush state
  | state, byte :: rest => (step state byte).1 ++ run (step state byte).2 rest

def decode (bytes : List UInt8) : List Char := run none bytes

def emitted : Option Pending → List UInt8 → List Char
  | _, [] => []
  | state, byte :: rest =>
      (step state byte).1 ++ emitted (step state byte).2 rest

def after : Option Pending → List UInt8 → Option Pending
  | state, [] => state
  | state, byte :: rest => after (step state byte).2 rest

theorem run_append (state : Option Pending) (front back : List UInt8) :
    run state (front ++ back) =
      emitted state front ++ run (after state front) back := by
  induction front generalizing state with
  | nil => rfl
  | cons byte rest ih =>
      rw [List.cons_append, run, ih, emitted, after, List.append_assoc]

/-- A continuation byte is out of place at the start of a sequence. -/
def Pending.Sound (pending : Pending) : Prop :=
  0x80 ≤ pending.lower ∧ pending.upper < 0xC0

def Sound (state : Option Pending) : Prop :=
  ∀ pending, state = some pending → pending.Sound

theorem sound_none : Sound none := by
  intro pending h
  cases h

theorem sound_some {pending : Pending} (h : pending.Sound) :
    Sound (some pending) := by
  intro other hother
  cases hother
  exact h

theorem sound_lead (byte : UInt8) : Sound (lead byte).2 := by
  simp only [lead]
  split
  · exact sound_none
  · split
    · exact sound_none
    · split
      · exact sound_some ⟨Nat.le_refl _, (by decide : 0xBF < 0xC0)⟩
      · split
        · refine sound_some ⟨?_, ?_⟩
          · simp only
            split
            · decide
            · decide
          · simp only
            split
            · decide
            · decide
        · split
          · refine sound_some ⟨?_, ?_⟩
            · simp only
              split
              · decide
              · decide
            · simp only
              split
              · decide
              · decide
          · exact sound_none

theorem sound_step {state : Option Pending} (byte : UInt8) :
    Sound (step state byte).2 := by
  cases state with
  | none => exact sound_lead byte
  | some pending =>
      simp only [step]
      split
      · split
        · exact sound_none
        · exact sound_some ⟨Nat.le_refl _, (by decide : 0xBF < 0xC0)⟩
      · exact sound_lead byte

theorem sound_after {state : Option Pending} (h : Sound state)
    (bytes : List UInt8) : Sound (after state bytes) := by
  induction bytes generalizing state with
  | nil => exact h
  | cons byte rest ih => exact ih (sound_step byte)

theorem lead_of_continues {pending : Pending} (sound : pending.Sound)
    {byte : UInt8} (h : pending.Continues byte) :
    lead byte = ([replacement], none) := by
  have hlow : ¬ byte.toNat < 0x80 := by
    have := sound.1
    have := h.1
    omega
  have hhigh : byte.toNat < 0xC2 := by
    have := sound.2
    have := h.2
    omega
  simp only [lead]
  rw [if_neg hlow, if_pos hhigh]

theorem step_of_not_continues {pending : Pending} {byte : UInt8}
    (h : ¬ pending.Continues byte) :
    step (some pending) byte =
      (replacement :: (lead byte).1, (lead byte).2) := by
  simp only [step]
  rw [if_neg h]

theorem run_none_of_continues {pending : Pending} (sound : pending.Sound)
    {byte : UInt8} (h : pending.Continues byte) (rest : List UInt8) :
    run none (byte :: rest) = replacement :: run none rest := by
  rw [run, step, lead_of_continues sound h]
  rfl

theorem length_step_of_continues {pending : Pending} {byte : UInt8}
    (h : pending.Continues byte) :
    (step (some pending) byte).1.length +
      (flush (step (some pending) byte).2).length ≤ 1 := by
  simp only [step]
  rw [if_pos h]
  split
  · exact Nat.le_refl _
  · exact Nat.le_refl _

theorem length_run_le {state : Option Pending} (sound : Sound state)
    (bytes : List UInt8) :
    (run state bytes).length ≤
      (flush state).length + (run none bytes).length := by
  induction bytes generalizing state with
  | nil => exact Nat.le_add_right _ _
  | cons byte rest ih =>
      cases state with
      | none => exact Nat.le_add_left _ _
      | some pending =>
          by_cases hcontinues : pending.Continues byte
          · have hnone := run_none_of_continues (sound pending rfl) hcontinues
              rest
            have hstep := length_step_of_continues hcontinues
            have hrest := ih (@sound_step (some pending) byte)
            rw [hnone, run, List.length_append, List.length_cons]
            simp only [flush, List.length_singleton]
            omega
          · rw [run, step_of_not_continues hcontinues]
            simp only [run, step, flush, List.length_append, List.length_cons,
              List.length_nil]
            omega

/-! Decoding piece by piece. -/

/-- The next byte continues the sequence that is open. -/
def Splits : Option Pending → List UInt8 → Prop
  | some pending, byte :: _ => pending.Continues byte
  | _, _ => False

theorem run_of_not_splits {state : Option Pending} {bytes : List UInt8}
    (h : ¬ Splits state bytes) :
    run state bytes = flush state ++ run none bytes := by
  cases state with
  | none => rfl
  | some pending =>
      cases bytes with
      | nil => rfl
      | cons byte rest =>
          rw [run, step_of_not_continues h]
          rfl

theorem length_run_of_splits {state : Option Pending} (sound : Sound state)
    {bytes : List UInt8} (h : Splits state bytes) :
    (run state bytes).length <
      (flush state).length + (run none bytes).length := by
  cases state with
  | none => cases h
  | some pending =>
      cases bytes with
      | nil => cases h
      | cons byte rest =>
          have hnone := run_none_of_continues (sound pending rfl) h rest
          have hstep := length_step_of_continues h
          have hrest := length_run_le (@sound_step (some pending) byte) rest
          rw [hnone, run, List.length_append, List.length_cons]
          simp only [flush, List.length_singleton]
          omega

/-- No boundary between two pieces lies inside a sequence. -/
def Unsplit : List (List UInt8) → Prop
  | [] => True
  | piece :: rest => ¬ Splits (after none piece) rest.flatten ∧ Unsplit rest

theorem length_decode_le (pieces : List (List UInt8)) :
    (decode pieces.flatten).length ≤ (pieces.flatMap decode).length := by
  induction pieces with
  | nil => exact Nat.le_refl _
  | cons piece rest ih =>
      have hrun := length_run_le (sound_after sound_none piece) rest.flatten
      have hpiece := run_append none piece []
      rw [List.append_nil] at hpiece
      rw [List.flatten_cons, List.flatMap_cons, decode, run_append, decode,
        hpiece, List.length_append, List.length_append, List.length_append]
      simp only [run]
      change (run none rest.flatten).length ≤ _ at ih
      omega

/-- Decoding piece by piece gives the same text exactly when no sequence is
split. -/
theorem flatMap_decode_eq_iff (pieces : List (List UInt8)) :
    pieces.flatMap decode = decode pieces.flatten ↔ Unsplit pieces := by
  induction pieces with
  | nil => exact iff_of_true rfl trivial
  | cons piece rest ih =>
      have hpiece := run_append none piece []
      rw [List.append_nil] at hpiece
      rw [List.flatten_cons, List.flatMap_cons, decode, decode, run_append,
        hpiece, List.append_assoc, List.append_cancel_left_eq, Unsplit, ← ih]
      simp only [run]
      constructor
      · intro h
        have hunsplit : ¬ Splits (after none piece) rest.flatten := by
          intro hsplits
          have hlt := length_run_of_splits (sound_after sound_none piece)
            hsplits
          have hle := length_decode_le rest
          have hlength := congrArg List.length h
          rw [List.length_append] at hlength
          change (run none rest.flatten).length ≤ _ at hle
          omega
        rw [run_of_not_splits hunsplit, List.append_cancel_left_eq] at h
        exact ⟨hunsplit, h⟩
      · rintro ⟨hunsplit, hrest⟩
        rw [run_of_not_splits hunsplit, List.append_cancel_left_eq]
        exact hrest

/-! Decoding what was encoded. -/

theorem lead_two {byte : UInt8} (h : 0xC2 ≤ byte.toNat)
    (h' : byte.toNat < 0xE0) :
    lead byte = ([], some ⟨0x80, 0xBF, 1, byte.toNat - 0xC0⟩) := by
  simp only [lead]
  rw [if_neg (by omega), if_neg (by omega), if_pos h']

theorem lead_three {byte : UInt8} (h : 0xE0 ≤ byte.toNat)
    (h' : byte.toNat < 0xF0) :
    lead byte = ([], some ⟨if byte.toNat = 0xE0 then 0xA0 else 0x80,
      if byte.toNat = 0xED then 0x9F else 0xBF, 2, byte.toNat - 0xE0⟩) := by
  simp only [lead]
  rw [if_neg (by omega), if_neg (by omega), if_neg (by omega), if_pos h']

theorem lead_four {byte : UInt8} (h : 0xF0 ≤ byte.toNat)
    (h' : byte.toNat < 0xF5) :
    lead byte = ([], some ⟨if byte.toNat = 0xF0 then 0x90 else 0x80,
      if byte.toNat = 0xF4 then 0x8F else 0xBF, 3, byte.toNat - 0xF0⟩) := by
  simp only [lead]
  rw [if_neg (by omega), if_neg (by omega), if_neg (by omega),
    if_neg (by omega), if_pos h']

theorem step_last {lower upper bits : Nat} {byte : UInt8}
    (low : lower ≤ byte.toNat) (high : byte.toNat ≤ upper) :
    step (some ⟨lower, upper, 1, bits⟩) byte =
      ([Char.ofNat (bits * 64 + (byte.toNat - 0x80))], none) := by
  simp only [step]
  rw [if_pos ⟨low, high⟩, if_pos (Nat.le_refl 1)]

theorem step_more {lower upper needed bits : Nat} {byte : UInt8}
    (low : lower ≤ byte.toNat) (high : byte.toNat ≤ upper) :
    step (some ⟨lower, upper, needed + 2, bits⟩) byte =
      ([], some ⟨0x80, 0xBF, needed + 1,
        bits * 64 + (byte.toNat - 0x80)⟩) := by
  simp only [step]
  rw [if_pos ⟨low, high⟩, if_neg (by omega)]
  rfl

theorem toNat_byte {n : Nat} (h : n < 256) : (UInt8.ofNat n).toNat = n := by
  rw [UInt8.toNat_ofNat']
  exact Nat.mod_eq_of_lt h

theorem step_none (byte : UInt8) : step none byte = lead byte := rfl

theorem read_two {first second : UInt8} {pending : Pending} {c : Char}
    (opens : lead first = ([], some pending))
    (closes : step (some pending) second = ([c], none)) :
    emitted none [first, second] = [c] ∧ after none [first, second] = none := by
  simp [emitted, after, step_none, opens, closes]

theorem read_three {first second third : UInt8} {pending next : Pending}
    {c : Char} (opens : lead first = ([], some pending))
    (goes : step (some pending) second = ([], some next))
    (closes : step (some next) third = ([c], none)) :
    emitted none [first, second, third] = [c] ∧
      after none [first, second, third] = none := by
  simp [emitted, after, step_none, opens, goes, closes]

theorem read_four {first second third fourth : UInt8}
    {pending next last : Pending} {c : Char}
    (opens : lead first = ([], some pending))
    (goes : step (some pending) second = ([], some next))
    (still : step (some next) third = ([], some last))
    (closes : step (some last) fourth = ([c], none)) :
    emitted none [first, second, third, fourth] = [c] ∧
      after none [first, second, third, fourth] = none := by
  simp [emitted, after, step_none, opens, goes, still, closes]

theorem emitted_encode (c : Char) :
    emitted none (String.utf8EncodeChar c) = [c] ∧
      after none (String.utf8EncodeChar c) = none := by
  have hvalid : c.val.toNat < 0xD800 ∨
      0xDFFF < c.val.toNat ∧ c.val.toNat < 0x110000 := c.valid
  have hchar : Char.ofNat c.val.toNat = c := Char.ofNat_toNat c
  unfold String.utf8EncodeChar
  simp only
  generalize c.val.toNat = v at hvalid hchar
  split
  · rename_i hone
    have hb := @toNat_byte v (by omega)
    simp only [emitted, after, step, lead, hb]
    rw [if_pos (by omega), hchar]
    exact ⟨rfl, rfl⟩
  · rename_i hone
    have hlast := @toNat_byte (v % 0x40 + 0x80) (by omega)
    split
    · rename_i htwo
      have hb := @toNat_byte (v / 64 % 0x20 + 0xc0) (by omega)
      refine read_two (lead_two (by omega) (by omega)) ?_
      rw [step_last (by omega) (by omega), hb, hlast]
      have hbits : (v / 64 % 0x20 + 0xc0 - 0xC0) * 64 +
          (v % 0x40 + 0x80 - 0x80) = v := by omega
      rw [hbits, hchar]
    · rename_i htwo
      have hthird := @toNat_byte (v / 64 % 0x40 + 0x80) (by omega)
      split
      · rename_i hthree
        have hb := @toNat_byte (v / 4096 % 0x10 + 0xe0) (by omega)
        refine read_three (lead_three (by omega) (by omega))
          (@step_more _ _ 0 _ _ ?_ ?_) ?_
        · rw [hb, hthird]
          split
          · omega
          · omega
        · rw [hb, hthird]
          split
          · omega
          · omega
        · rw [step_last (by omega) (by omega), hb, hthird, hlast]
          have hbits : ((v / 4096 % 0x10 + 0xe0 - 0xE0) * 64 +
              (v / 64 % 0x40 + 0x80 - 0x80)) * 64 +
              (v % 0x40 + 0x80 - 0x80) = v := by omega
          rw [hbits, hchar]
      · rename_i hthree
        have hb := @toNat_byte (v / 262144 % 0x08 + 0xf0) (by omega)
        have hsecond := @toNat_byte (v / 4096 % 0x40 + 0x80) (by omega)
        refine read_four (lead_four (by omega) (by omega))
          (@step_more _ _ 1 _ _ ?_ ?_)
          (@step_more _ _ 0 _ _ (by omega) (by omega)) ?_
        · rw [hb, hsecond]
          split
          · omega
          · omega
        · rw [hb, hsecond]
          split
          · omega
          · omega
        · rw [step_last (by omega) (by omega), hb, hsecond, hthird, hlast]
          have hbits : (((v / 262144 % 0x08 + 0xf0 - 0xF0) * 64 +
              (v / 4096 % 0x40 + 0x80 - 0x80)) * 64 +
              (v / 64 % 0x40 + 0x80 - 0x80)) * 64 +
              (v % 0x40 + 0x80 - 0x80) = v := by omega
          rw [hbits, hchar]

def encode (text : List Char) : List UInt8 :=
  text.flatMap String.utf8EncodeChar

theorem after_append (state : Option Pending) (front back : List UInt8) :
    after state (front ++ back) = after (after state front) back := by
  induction front generalizing state with
  | nil => rfl
  | cons byte rest ih => exact ih _

theorem decode_encode (text : List Char) : decode (encode text) = text := by
  induction text with
  | nil => rfl
  | cons c rest ih =>
      unfold encode decode at ih ⊢
      rw [List.flatMap_cons, run_append, (emitted_encode c).1,
        (emitted_encode c).2, ih, List.singleton_append]

end Utf8

end TwakeKickstart.Library
