import TwakeKickstart.Library.JsonText
import TwakeKickstart.Library.RegexLanguage
import TwakeKickstart.Utils.MatrixId

namespace TwakeKickstart.Utils

open Library

/-! The Matrix IDs that are recognised are those that can be built. -/

/-! Texts of ASCII characters. -/

theorem isAlphanum_eq (c : Char) :
    c.isAlphanum = ((c.isUpper || c.isLower) || c.isDigit) := rfl

theorem isLocalpartChar_of_mem {c : Char} {localpart : String}
    (valid : validLocalpartRegex.test localpart = true)
    (hc : c ∈ localpart.toList) : isLocalpartChar c = true := by
  cases Regex.matches_of_test valid with
  | run all _ _ => exact all c hc

theorem toMatrixId_eq_ok_iff {localpart serverName mxid : String} :
    toMatrixId (some localpart) serverName = .ok mxid ↔
      localpart ≠ "" ∧ serverName ≠ "" ∧
        validLocalpartRegex.test localpart = true ∧
        isValidServerName serverName = true ∧
        mxid.length ≤ maxMatrixIdLength ∧
        mxid = "@" ++ localpart ++ ":" ++ serverName := by
  unfold toMatrixId
  dsimp only
  constructor
  · intro h
    split at h
    · cases h
    · rename_i hlocalpart
      split at h
      · cases h
      · rename_i hserver
        split at h
        · cases h
        · rename_i hregex
          split at h
          · cases h
          · rename_i hvalid
            split at h
            · cases h
            · rename_i hlength
              cases h
              exact ⟨hlocalpart, hserver, by simpa using hregex,
                by simpa using hvalid, Nat.le_of_not_lt hlength, rfl⟩
  · rintro ⟨hlocalpart, hserver, hregex, hvalid, hlength, rfl⟩
    rw [if_neg hlocalpart, if_neg hserver, hregex, hvalid,
      if_neg (Nat.not_lt_of_le hlength)]
    rfl

theorem toList_joined (localpart serverName : String) :
    ("@" ++ localpart ++ ":" ++ serverName).toList =
      '@' :: (localpart.toList ++ ':' :: serverName.toList) := by
  simp [String.toList_append]

theorem colon_not_mem {localpart : String}
    (valid : validLocalpartRegex.test localpart = true) :
    ':' ∉ localpart.toList := by
  intro hcolon
  exact absurd (isLocalpartChar_of_mem valid hcolon) (by decide)

theorem isMatrixId_of_toMatrixId {localpart serverName mxid : String}
    (built : toMatrixId (some localpart) serverName = .ok mxid) :
    isMatrixId mxid = true := by
  obtain ⟨hlocalpart, hserver, hregex, hvalid, hlength, rfl⟩ :=
    toMatrixId_eq_ok_iff.mp built
  obtain ⟨htake, hdrop⟩ :=
    @Regex.around_separator _ _ serverName.toList (colon_not_mem hregex)
  unfold isMatrixId
  simp only [toList_joined, htake, hdrop, String.ofList_toList, hregex, hvalid]
  simpa [hlocalpart, hserver] using hlength

theorem toMatrixId_of_isMatrixId {id : String} (valid : isMatrixId id = true) :
    ∃ localpart serverName,
      toMatrixId (some localpart) serverName = .ok id := by
  unfold isMatrixId at valid
  split at valid
  · rename_i rest hid
    dsimp only at valid
    split at valid
    · rename_i colon serverName hdrop
      simp only [Bool.and_eq_true, decide_eq_true_eq, bne_iff_ne] at valid
      obtain ⟨⟨⟨⟨hlength, hlocalpart⟩, hserver⟩, hregex⟩, hvalid⟩ := valid
      have hcolon : colon = ':' := by
        have hfirst := List.head?_dropWhile_not (· != ':') rest
        rw [hdrop] at hfirst
        simpa using hfirst
      refine ⟨_, String.ofList serverName, toMatrixId_eq_ok_iff.mpr
        ⟨hlocalpart, ?_, hregex, hvalid, hlength, ?_⟩⟩
      · simpa using hserver
      · apply String.toList_injective
        rw [hid, toList_joined, String.toList_ofList, String.toList_ofList,
          ← hcolon, ← hdrop, hcolon, List.takeWhile_append_dropWhile]
    · cases valid
  · cases valid

theorem toMatrixId_parts_inj {localpart serverName other another mxid : String}
    (built : toMatrixId (some localpart) serverName = .ok mxid)
    (again : toMatrixId (some other) another = .ok mxid) :
    localpart = other ∧ serverName = another := by
  obtain ⟨_, _, hregex, _, _, hmxid⟩ := toMatrixId_eq_ok_iff.mp built
  obtain ⟨_, _, hother, _, _, hagain⟩ := toMatrixId_eq_ok_iff.mp again
  have hjoined := congrArg String.toList (hmxid.symm.trans hagain)
  rw [toList_joined, toList_joined, List.cons.injEq] at hjoined
  obtain ⟨hlocalpart, hserver⟩ := Regex.first_separator_inj
    (colon_not_mem hregex) (colon_not_mem hother) hjoined.2
  exact ⟨String.toList_injective hlocalpart, String.toList_injective hserver⟩

/-- What is recognised is what can be built, and from one pair of parts. -/
theorem isMatrixId_iff_toMatrixId (id : String) :
    (isMatrixId id = true ↔ ∃ localpart serverName,
      toMatrixId (some localpart) serverName = .ok id) ∧
    ∀ localpart serverName other another,
      toMatrixId (some localpart) serverName = .ok id →
      toMatrixId (some other) another = .ok id →
        localpart = other ∧ serverName = another := by
  refine ⟨⟨toMatrixId_of_isMatrixId, ?_⟩, ?_⟩
  · rintro ⟨localpart, serverName, built⟩
    exact isMatrixId_of_toMatrixId built
  · intro localpart serverName other another built again
    exact toMatrixId_parts_inj built again

end TwakeKickstart.Utils
