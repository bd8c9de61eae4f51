import TwakeKickstart.IdentityServer.ThreePid.Bind
import TwakeKickstart.Utils.Ipv6Literal
import TwakeKickstart.Utils.IsMatrixId

namespace TwakeKickstart.IdentityServer

open Library Utils

/-! The Matrix IDs that the server takes apart, and those that it lets bind. -/

section Parts

variable {localpart serverName mxid : String}

theorem splitOn_joined (regex : validLocalpartRegex.test localpart = true)
    (serverName : String) :
    ("@" ++ localpart ++ ":" ++ serverName).toList.splitOn ':' =
      ('@' :: localpart.toList) :: serverName.toList.splitOn ':' := by
  have hcolon : ':' ∉ '@' :: localpart.toList := by
    rw [List.mem_cons, not_or]
    exact ⟨by decide, colon_not_mem regex⟩
  rw [toList_joined, ← List.cons_append,
    List.splitOn_append_cons_self_of_not_mem hcolon]

theorem getLocalPart_of_toMatrixId
    (built : toMatrixId (some localpart) serverName = .ok mxid) :
    getLocalPart mxid = some localpart := by
  obtain ⟨_, _, hregex, _, _, rfl⟩ := toMatrixId_eq_ok_iff.mp built
  obtain ⟨first, rest, hsplit⟩ := List.exists_cons_of_ne_nil
    (List.splitOn_ne_nil ':' serverName.toList)
  unfold getLocalPart
  rw [splitOn_joined hregex, hsplit]
  exact congrArg some String.ofList_toList

/-- The first part of a text at its colons is the whole text just when it has
none. -/
theorem head?_splitOn_iff {text : List Char} :
    (text.splitOn ':').head? = some text ↔ ':' ∉ text := by
  constructor
  · intro h hcolon
    obtain ⟨before, after, rfl, hbefore⟩ := List.eq_append_cons_of_mem hcolon
    rw [List.splitOn_append_cons_self_of_not_mem hbefore, List.head?_cons,
      Option.some.injEq] at h
    have hlength := congrArg List.length h
    simp at hlength
  · intro h
    rw [List.splitOn_eq_singleton h]
    rfl

theorem getServerNameFromMatrixId_iff
    (built : toMatrixId (some localpart) serverName = .ok mxid) :
    getServerNameFromMatrixId (.str mxid) = some serverName ↔
      ':' ∉ serverName.toList := by
  obtain ⟨_, _, hregex, _, _, rfl⟩ := toMatrixId_eq_ok_iff.mp built
  rw [← head?_splitOn_iff]
  obtain ⟨first, rest, hsplit⟩ := List.exists_cons_of_ne_nil
    (List.splitOn_ne_nil ':' serverName.toList)
  rw [getServerNameFromMatrixId, splitOn_joined hregex, hsplit]
  dsimp only [List.getElem?_cons_succ, List.getElem?_cons_zero,
    Option.elim_some, List.head?_cons]
  rw [Option.some.injEq, Option.some.injEq, ← String.toList_inj,
    String.toList_ofList]

/-- An ID that is built is taken apart into its two parts just when the name of
its server has no colon. -/
theorem parts_of_toMatrixId_iff
    (built : toMatrixId (some localpart) serverName = .ok mxid) :
    (getLocalPart mxid = some localpart ∧
        getServerNameFromMatrixId (.str mxid) = some serverName) ↔
      ':' ∉ serverName.toList := by
  rw [getServerNameFromMatrixId_iff built]
  exact and_iff_right (getLocalPart_of_toMatrixId built)

end Parts

theorem parts_of_plain_name :
    getLocalPart "@alice:matrix.org" = some "alice" ∧
      getServerNameFromMatrixId (.str "@alice:matrix.org") =
        some "matrix.org" := by
  have built : toMatrixId (some "alice") "matrix.org" =
      .ok "@alice:matrix.org" := by
    decide
  exact (parts_of_toMatrixId_iff built).mpr (by decide)

/-- The port of a server is cut off. -/
theorem port_is_cut_off :
    toMatrixId (some "alice") "example.com:8448" =
        .ok "@alice:example.com:8448" ∧
      ¬ (getLocalPart "@alice:example.com:8448" = some "alice" ∧
        getServerNameFromMatrixId (.str "@alice:example.com:8448") =
          some "example.com:8448") := by
  refine ⟨by decide, ?_⟩
  rintro ⟨_, hserver⟩
  revert hserver
  decide

/-! The expression with which `bind`, `unbind` and the ephemeral signing check a
Matrix ID. -/

theorem matches_some1_iff {accepted : Char → Bool} {text : List Char} :
    Regex.Matches (.some1 accepted) text ↔
      text ≠ [] ∧ ∀ c ∈ text, accepted c = true := by
  rw [Regex.some1, Regex.matches_run_iff]
  constructor
  · rintro ⟨hall, hleast, _⟩
    exact ⟨List.ne_nil_of_length_pos hleast, hall⟩
  · rintro ⟨hnonempty, hall⟩
    exact ⟨hall, List.length_pos_of_ne_nil hnonempty, nofun⟩

theorem matches_mxidRe_iff {text : List Char} :
    Regex.Matches mxidRe text ↔
      ∃ localpart serverName, text = '@' :: (localpart ++ ':' :: serverName) ∧
        (localpart ≠ [] ∧ ∀ c ∈ localpart, isSecretChar c = true) ∧
        (serverName ≠ [] ∧ ∀ c ∈ serverName, isServerChar c = true) := by
  unfold mxidRe
  simp only [Regex.sequence, Regex.matches_seq_iff, Regex.matches_literal_iff,
    matches_some1_iff]
  constructor
  · rintro ⟨_, _, rfl, rfl, localpart, _, rfl, hlocalpart, _, serverName, rfl,
      rfl, hserver⟩
    exact ⟨localpart, serverName, rfl, hlocalpart, hserver⟩
  · rintro ⟨localpart, serverName, rfl, hlocalpart, hserver⟩
    exact ⟨['@'], _, rfl, rfl, localpart, _, rfl, hlocalpart, [':'],
      serverName, rfl, rfl, hserver⟩

theorem colon_mem_joined {groups : List (List Char)} (h : 2 ≤ groups.length) :
    ':' ∈ Ipv6Text.joined groups := by
  match groups, h with
  | first :: second :: rest, _ =>
      unfold Ipv6Text.joined
      rw [List.intercalate_cons_cons]
      simp

theorem colon_mem_of_ipv6Inner {text : List Char}
    (matched : Regex.Matches ipv6Inner text) : ':' ∈ text := by
  rcases matches_ipv6Inner_iff.mp matched with
    (⟨groups, hlength, _, rfl⟩ | ⟨left, right, _, _, _, rfl⟩) | hmapped
  · exact colon_mem_joined (by omega)
  · simp
  · obtain ⟨upper, numbers, hupper, _, _, rfl⟩ :=
      matches_mappedAddress_iff.mp hmapped
    obtain ⟨before, rfl⟩ :=
      Ipv6Text.eq_concat_of_isUpper (isUpper_of_isMappedUpper hupper)
    simp

theorem colon_mem_of_bracket {serverName : String}
    (valid : isValidServerName serverName = true)
    (bracket : serverName.toList.head? = some '[') :
    ':' ∈ serverName.toList := by
  unfold isValidServerName at valid
  dsimp only at valid
  rw [if_pos bracket] at valid
  split at valid
  · cases valid
  · split at valid
    · rw [Bool.and_eq_true, Regex.acceptsList_iff] at valid
      have hmatched : Regex.Matches (.seq (.literal '[')
          (.seq ipv6Inner (.literal ']'))) _ := valid.1
      rw [Regex.matches_seq_iff] at hmatched
      obtain ⟨_, _, htake, _, hrest⟩ := hmatched
      obtain ⟨inner, _, rfl, hinner, _⟩ := Regex.matches_seq_iff.mp hrest
      apply List.mem_of_mem_take
      rw [htake]
      simp [colon_mem_of_ipv6Inner hinner]
    · cases valid

theorem isServerChar_of_mem {c : Char} {serverName : String}
    (valid : isValidServerName serverName = true)
    (noColon : ':' ∉ serverName.toList) (hc : c ∈ serverName.toList) :
    isServerChar c = true := by
  have hunbracketed : serverName.toList.head? ≠ some '[' :=
    fun bracket => noColon (colon_mem_of_bracket valid bracket)
  rcases (isValidServerName_iff_isServerName hunbracketed).mp valid with
    hhost | ⟨host, port, _, _, hjoined⟩
  · rcases mem_host hhost hc with hlabel | rfl
    · rw [isLabelChar, Bool.or_eq_true, beq_iff_eq] at hlabel
      rcases hlabel with halphanum | rfl
      · rw [isServerChar, halphanum]
        rfl
      · decide
    · decide
  · rw [hjoined] at noColon
    simp at noColon

theorem isSecretChar_of_mem {c : Char} {localpart : String}
    (regex : validLocalpartRegex.test localpart = true)
    (noSlash : '/' ∉ localpart.toList) (noPlus : '+' ∉ localpart.toList)
    (hc : c ∈ localpart.toList) : isSecretChar c = true := by
  have hclass := isLocalpartChar_of_mem regex hc
  rw [isLocalpartChar, Bool.or_eq_true, Bool.or_eq_true] at hclass
  rcases hclass with (hlower | hdigit) | hsymbol
  · rw [isSecretChar, isAlphanum_eq, hlower, Bool.or_true]
    rfl
  · rw [isSecretChar, Char.isAlphanum, hdigit, Bool.or_true]
    rfl
  · have hsymbols : "_-.=/+".toList.all (fun d =>
        d = '/' ∨ d = '+' ∨ isSecretChar d = true) = true := by
      decide
    have hcases := List.all_eq_true.mp hsymbols c
      (List.contains_iff_mem.mp hsymbol)
    rcases of_decide_eq_true hcases with
      rfl | rfl | hsecret
    · exact absurd hc noSlash
    · exact absurd hc noPlus
    · exact hsecret

theorem count_joined {localpart serverName : List Char}
    (noColon : ':' ∉ localpart) :
    ('@' :: (localpart ++ ':' :: serverName)).count ':' =
      serverName.count ':' + 1 := by
  rw [List.count_cons_of_ne (by decide), List.count_append,
    List.count_eq_zero.mpr noColon, List.count_cons_self, Nat.zero_add]

theorem not_mem_joined {c : Char} {localpart serverName : List Char}
    (hlocalpart : c ∉ localpart) (hserver : c ∉ serverName) (hat : c ≠ '@')
    (hcolon : c ≠ ':') : c ∉ '@' :: (localpart ++ ':' :: serverName) := by
  simp [hlocalpart, hserver, hat, hcolon]

theorem not_mem_of_class {accepted : Char → Bool} {text : List Char} {c : Char}
    (all : ∀ d ∈ text, accepted d = true) (hc : accepted c = false) :
    c ∉ text := by
  intro hmem
  rw [all c hmem] at hc
  cases hc

/-- A Matrix ID may be bound just when it has no slash, no plus and no second
colon. -/
theorem mxidRe_test_iff {mxid : String} (valid : isMatrixId mxid = true) :
    mxidRe.test mxid = true ↔
      '/' ∉ mxid.toList ∧ '+' ∉ mxid.toList ∧
        mxid.toList.count ':' = 1 := by
  obtain ⟨localpart, serverName, built⟩ := toMatrixId_of_isMatrixId valid
  obtain ⟨hlocalpart, hserver, hregex, hname, _, rfl⟩ :=
    toMatrixId_eq_ok_iff.mp built
  have hcolon := colon_not_mem hregex
  rw [Regex.test, Regex.acceptsList_iff, matches_mxidRe_iff, toList_joined,
    count_joined hcolon]
  constructor
  · rintro ⟨first, second, hsame, ⟨_, hfirst⟩, _, hsecond⟩
    obtain ⟨rfl, rfl⟩ := Regex.first_separator_inj hcolon
      (not_mem_of_class hfirst (by decide)) (List.cons.inj hsame).2
    refine ⟨?_, ?_, ?_⟩
    · exact not_mem_joined (not_mem_of_class hfirst (by decide))
        (not_mem_of_class hsecond (by decide)) (by decide) (by decide)
    · exact not_mem_joined (not_mem_of_class hfirst (by decide))
        (not_mem_of_class hsecond (by decide)) (by decide) (by decide)
    · rw [List.count_eq_zero.mpr (not_mem_of_class hsecond (by decide))]
  · rintro ⟨hslash, hplus, hcount⟩
    simp only [List.mem_cons, List.mem_append, not_or] at hslash hplus
    have hnone : ':' ∉ serverName.toList :=
      List.count_eq_zero.mp (Nat.succ.inj hcount)
    refine ⟨_, _, rfl, ⟨?_, ?_⟩, ?_, ?_⟩
    · simpa using hlocalpart
    · intro c hc
      exact isSecretChar_of_mem hregex hslash.2.1 hplus.2.1 hc
    · simpa using hserver
    · intro c hc
      exact isServerChar_of_mem hname hnone hc

theorem mxidRe_accepts_alice : mxidRe.test "@alice:matrix.org" = true :=
  (mxidRe_test_iff (by decide)).mpr (by decide)

theorem mxidRe_refuses_port :
    isMatrixId "@alice:matrix.org:8448" = true ∧
      mxidRe.test "@alice:matrix.org:8448" = false := by
  decide

end TwakeKickstart.IdentityServer
