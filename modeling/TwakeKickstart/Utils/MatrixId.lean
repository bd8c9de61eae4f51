import Mathlib.Data.List.Infix
import TwakeKickstart.Library.Regex

namespace TwakeKickstart.Utils

open Library

/-! Construction of Matrix IDs and the grammar of server names. -/

def maxMatrixIdLength : Nat := 255

def isLocalpartChar (c : Char) : Bool :=
  c.isLower || c.isDigit || "_-.=/+".toList.contains c

def validLocalpartRegex : Regex := .some1 isLocalpartChar

def isDigitUpTo (most : Char) (c : Char) : Bool := '0' ≤ c && c ≤ most

def ipv4Octet : Regex :=
  .anyOf
    [.sequence [.literals "25", .one (isDigitUpTo '5')],
      .sequence [.literal '2', .one (isDigitUpTo '4'), .one Char.isDigit],
      .sequence [.optional (.one (isDigitUpTo '1')), .one Char.isDigit,
        .optional (.one Char.isDigit)]]

def ipv4Regex : Regex :=
  .seq (.exactly 3 (.seq ipv4Octet (.literal '.'))) ipv4Octet

def isHexDigit (c : Char) : Bool :=
  c.isDigit || ('a' ≤ c && c ≤ 'f') || ('A' ≤ c && c ≤ 'F')

def hextet : Regex := .run isHexDigit 1 (some 4)

def hextetColon : Regex := .seq hextet (.literal ':')

def colonHextet : Regex := .seq (.literal ':') hextet

/-- `(?:25[0-5]|(?:2[0-4]|1?[0-9])?[0-9])` -/
def mappedOctet : Regex :=
  .anyOf
    [.sequence [.literals "25", .one (isDigitUpTo '5')],
      .seq
        (.optional (.alt (.seq (.literal '2') (.one (isDigitUpTo '4')))
          (.seq (.optional (.literal '1')) (.one Char.isDigit))))
        (.one Char.isDigit)]

def ipv6Regex : Regex :=
  .sequence [.literal '[',
    .anyOf
      [.seq (.exactly 7 hextetColon) hextet,
        .seq (.between 1 7 hextetColon) (.literal ':'),
        .seq (.between 1 6 hextetColon) colonHextet,
        .seq (.between 1 5 hextetColon) (.between 1 2 colonHextet),
        .seq (.between 1 4 hextetColon) (.between 1 3 colonHextet),
        .seq (.between 1 3 hextetColon) (.between 1 4 colonHextet),
        .seq (.between 1 2 hextetColon) (.between 1 5 colonHextet),
        .seq hextetColon (.between 1 6 colonHextet),
        .seq (.literal ':') (.alt (.between 1 7 colonHextet) (.literal ':')),
        .sequence [.literals "::",
          .optional (.sequence [.literals "ffff",
            .optional (.seq (.literal ':') (.run (· == '0') 1 (some 4))),
            .literal ':']),
          .exactly 3 (.seq mappedOctet (.literal '.')), mappedOctet]],
    .literal ']']

def isLabelChar (c : Char) : Bool := c.isAlphanum || c == '-'

/-- `[a-zA-Z0-9](?:[a-zA-Z0-9-]{0,61}[a-zA-Z0-9])?` -/
def dnsLabel : Regex :=
  .seq (.one Char.isAlphanum)
    (.optional (.seq (.run isLabelChar 0 (some 61)) (.one Char.isAlphanum)))

def dnsNameRegex : Regex :=
  .seq (.star (.seq dnsLabel (.literal '.'))) dnsLabel

/-- The name expression with its look-aheads: no `..`, and no hyphen at either
end. -/
def isDnsName (hostname : List Char) : Bool :=
  !decide ("..".toList <:+: hostname) &&
    !(hostname.getLast? == some '-') && !(hostname.head? == some '-') &&
    dnsNameRegex.acceptsList hostname

def nonZeroDigit (c : Char) : Bool := '1' ≤ c && c ≤ '9'

def portRegex : Regex :=
  .seq (.literal ':')
    (.anyOf
      [.seq (.literals "6553") (.one (isDigitUpTo '5')),
        .sequence [.literals "655", .one (isDigitUpTo '2'), .one Char.isDigit],
        .sequence [.literals "65", .one (isDigitUpTo '4'),
          .run Char.isDigit 2 (some 2)],
        .sequence [.literal '6', .one (isDigitUpTo '4'),
          .run Char.isDigit 3 (some 3)],
        .seq (.one fun c => '1' ≤ c && c ≤ '5') (.run Char.isDigit 4 (some 4)),
        .seq (.one nonZeroDigit) (.run Char.isDigit 0 (some 3))])

def looksLikeIPv4 : Regex :=
  .seq (.exactly 3 (.seq (.run Char.isDigit 1 (some 3)) (.literal '.')))
    (.run Char.isDigit 1 (some 3))

/-- The split of a server name at its last colon, unless that colon comes
first. -/
def splitPort (serverName : List Char) : List Char × List Char :=
  let afterColon := (serverName.reverse.takeWhile (· != ':')).reverse
  let index := serverName.length - afterColon.length - 1
  if ':' ∈ serverName ∧ 0 < index then
    (serverName.take index, serverName.drop index)
  else (serverName, [])

def isValidPort (portPart : List Char) : Bool :=
  portPart.isEmpty || portRegex.acceptsList portPart

def isValidServerName (serverName : String) : Bool :=
  let characters := serverName.toList
  if characters.isEmpty then false
  else if characters.head? = some '[' then
    if ']' ∈ characters then
      let bracketEnd := characters.idxOf ']'
      ipv6Regex.acceptsList (characters.take (bracketEnd + 1)) &&
        isValidPort (characters.drop (bracketEnd + 1))
    else false
  else
    let (hostname, portPart) := splitPort characters
    (if looksLikeIPv4.acceptsList hostname then ipv4Regex.acceptsList hostname
      else isDnsName hostname) && isValidPort portPart

inductive MatrixIdError where
  | typeError (message : String)
  | invalidUsername
  deriving DecidableEq

/-- `localpart` is `none` when the value is no string. -/
def toMatrixId (localpart : Option String) (serverName : String) :
    Except MatrixIdError String :=
  match localpart with
  | none => .error (.typeError "localpart must be a non-empty string")
  | some localpart =>
      let matrixId := "@" ++ localpart ++ ":" ++ serverName
      if localpart = "" then
        .error (.typeError "localpart must be a non-empty string")
      else if serverName = "" then
        .error (.typeError "serverName must be a non-empty string")
      else if !validLocalpartRegex.test localpart then .error .invalidUsername
      else if !isValidServerName serverName then
        .error (.typeError ("serverName contains invalid characters or " ++
          "format according to Matrix specification."))
      else if maxMatrixIdLength < matrixId.length then
        .error (.typeError ("Matrix ID exceeds maximum length of " ++
          toString maxMatrixIdLength ++ " characters (got " ++
          toString matrixId.length ++ ")"))
      else .ok matrixId

theorem toMatrixId_ok {localpart : Option String} {serverName mxid : String}
    (h : toMatrixId localpart serverName = .ok mxid) :
    ∃ uid, localpart = some uid ∧ mxid = "@" ++ uid ++ ":" ++ serverName := by
  unfold toMatrixId at h
  split at h
  · cases h
  · rename_i uid
    simp only at h
    split at h
    · cases h
    · split at h
      · cases h
      · split at h
        · cases h
        · split at h
          · cases h
          · split at h
            · cases h
            · cases h
              exact ⟨uid, rfl, rfl⟩

theorem toMatrixId_valid {localpart serverName mxid : String}
    (h : toMatrixId (some localpart) serverName = .ok mxid) :
    validLocalpartRegex.test localpart = true ∧
      isValidServerName serverName = true := by
  unfold toMatrixId at h
  simp only at h
  split at h
  · cases h
  · split at h
    · cases h
    · split at h
      · cases h
      · rename_i hlocalpart
        split at h
        · cases h
        · rename_i hserver
          exact ⟨by simpa using hlocalpart, by simpa using hserver⟩

theorem not_mem_of_validPort {c : Char} {portPart : List Char}
    (rejected : portRegex.rejects c = true)
    (valid : isValidPort portPart = true) : c ∉ portPart := by
  unfold isValidPort at valid
  rcases Bool.or_eq_true_iff.mp valid with hempty | haccepts
  · rw [List.isEmpty_iff.mp hempty]
    exact List.not_mem_nil
  · exact Regex.not_mem_of_rejects (Regex.matches_of_acceptsList haccepts)
      rejected

theorem splitPort_append (serverName : List Char) :
    (splitPort serverName).1 ++ (splitPort serverName).2 = serverName := by
  unfold splitPort
  dsimp only
  split
  · exact List.take_append_drop _ _
  · exact List.append_nil _

/-- The expressions that a server name is checked with. -/
def serverNameRegexes : List Regex :=
  [ipv6Regex, ipv4Regex, dnsNameRegex, portRegex]

theorem not_mem_of_validServerName {c : Char} {serverName : String}
    (rejected : ∀ expression ∈ serverNameRegexes,
      expression.rejects c = true)
    (valid : isValidServerName serverName = true) : c ∉ serverName.toList := by
  simp only [serverNameRegexes, List.mem_cons, List.not_mem_nil, or_false,
    forall_eq_or_imp, forall_eq] at rejected
  obtain ⟨hipv6, hipv4, hdns, hport⟩ := rejected
  unfold isValidServerName at valid
  simp only at valid
  split at valid
  · cases valid
  · split at valid
    · split at valid
      · simp only [Bool.and_eq_true] at valid
        rw [← List.take_append_drop (serverName.toList.idxOf ']' + 1)
          serverName.toList, List.mem_append, not_or]
        exact ⟨Regex.not_mem_of_rejects
          (Regex.matches_of_acceptsList valid.1) hipv6,
          not_mem_of_validPort hport valid.2⟩
      · cases valid
    · simp only [Bool.and_eq_true] at valid
      obtain ⟨hhost, hrest⟩ := valid
      rw [← splitPort_append serverName.toList, List.mem_append, not_or]
      refine ⟨?_, not_mem_of_validPort hport hrest⟩
      split at hhost
      · exact Regex.not_mem_of_rejects (Regex.matches_of_acceptsList hhost)
          hipv4
      · simp only [isDnsName, Bool.and_eq_true] at hhost
        exact Regex.not_mem_of_rejects
          (Regex.matches_of_acceptsList hhost.2) hdns

theorem serverNameRegexes_reject {c : Char} (h : isLineTerminator c = true) :
    ∀ expression ∈ serverNameRegexes, expression.rejects c = true := by
  simp only [isLineTerminator, Bool.or_eq_true, beq_iff_eq] at h
  rcases h with ((rfl | rfl) | rfl) | rfl
  · decide
  · decide
  · decide
  · decide

theorem toMatrixId_injective {left right : Option String}
    {serverName mxid : String} (hleft : toMatrixId left serverName = .ok mxid)
    (hright : toMatrixId right serverName = .ok mxid) : left = right := by
  obtain ⟨uid, rfl, hmxid⟩ := toMatrixId_ok hleft
  obtain ⟨other, rfl, hother⟩ := toMatrixId_ok hright
  have hjoined := hmxid.symm.trans hother
  simp only [String.append_left_inj, String.append_right_inj] at hjoined
  rw [hjoined]

example : toMatrixId (some "alice") "matrix.org:8448" =
    .ok "@alice:matrix.org:8448" := by decide

end TwakeKickstart.Utils

namespace TwakeKickstart.Utils

/-! Reading Matrix IDs. -/

/-- The text between the `@` and the first colon. -/
def getLocalPart (id : String) : Option String :=
  match id.toList.splitOn ':' with
  | ('@' :: localPart) :: _ :: _ => some (String.ofList localPart)
  | _ => none

def isMatrixId (id : String) : Bool :=
  match id.toList with
  | '@' :: rest =>
      let localpart := String.ofList (rest.takeWhile (· != ':'))
      match rest.dropWhile (· != ':') with
      | _ :: serverName =>
          decide (id.length ≤ maxMatrixIdLength) && localpart != "" &&
            !serverName.isEmpty && validLocalpartRegex.test localpart &&
            isValidServerName (String.ofList serverName)
      | [] => false
  | _ => false

end TwakeKickstart.Utils
