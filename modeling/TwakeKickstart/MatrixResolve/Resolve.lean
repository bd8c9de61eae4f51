import TwakeKickstart.Library.JsonText
import TwakeKickstart.Library.RegexWays
import TwakeKickstart.Utils.MatrixId

namespace TwakeKickstart.MatrixResolve

open Library

/-! From the name of a Matrix server to its base URL. -/

def octet : Regex :=
  .anyOf
    [.sequence [.literals "25", .one (Utils.isDigitUpTo '5')],
      .sequence [.literal '2', .one (Utils.isDigitUpTo '4'),
        .one Char.isDigit],
      .seq (.optional (.one (Utils.isDigitUpTo '1')))
        (.run Char.isDigit 1 (some 2))]

def ipv4 : Regex :=
  .sequence [octet, .literal '.', octet, .literal '.', octet, .literal '.',
    octet]

def group : Regex := .run Utils.isHexDigit 1 (some 4)

def groupColon : Regex := .seq group (.literal ':')

def colonGroup : Regex := .seq (.literal ':') group

/-- `25[0-5]|(?:2[0-4]|1{0,1}[0-9]){0,1}[0-9]` -/
def mappedOctet : Regex :=
  .alt (.seq (.literals "25") (.one (Utils.isDigitUpTo '5')))
    (.seq
      (.optional (.alt (.seq (.literal '2') (.one (Utils.isDigitUpTo '4')))
        (.seq (.optional (.literal '1')) (.one Char.isDigit))))
      (.one Char.isDigit))

def dottedOctets : Regex :=
  .seq (.exactly 3 (.seq mappedOctet (.literal '.'))) mappedOctet

def ipv6 : Regex :=
  .anyOf
    [.seq (.exactly 7 groupColon) group,
      .seq (.between 1 7 groupColon) (.literal ':'),
      .seq (.between 1 6 groupColon) colonGroup,
      .seq (.between 1 5 groupColon) (.between 1 2 colonGroup),
      .seq (.between 1 4 groupColon) (.between 1 3 colonGroup),
      .seq (.between 1 3 groupColon) (.between 1 4 colonGroup),
      .seq (.between 1 2 groupColon) (.between 1 5 colonGroup),
      .seq groupColon (.between 1 6 colonGroup),
      .seq (.literal ':') (.alt (.between 1 7 colonGroup) (.literal ':')),
      .sequence [.literals "fe80:",
        .atMost 4 (.seq (.literal ':') (.run Utils.isHexDigit 0 (some 4))),
        .literal '%', .some1 Char.isAlphanum],
      .sequence [.literals "::",
        .optional (.sequence [.literals "ffff",
          .optional (.seq (.literal ':') (.run (· == '0') 1 (some 4))),
          .literal ':']),
        dottedOctets],
      .sequence [.between 1 4 groupColon, .literal ':', dottedOctets]]

/-- `(?:(?:[a-zA-Z0-9][-a-zA-Z0-9]*)?[a-zA-Z0-9])` -/
def label : Regex :=
  .seq (.optional (.seq (.one Char.isAlphanum) (.many Utils.isLabelChar)))
    (.one Char.isAlphanum)

def lastLabel : Regex :=
  .alt
    (.sequence [.one Char.isAlpha, .many Utils.isLabelChar,
      .one Char.isAlphanum])
    (.one Char.isAlpha)

/-- What the rest of the text is to the port of an expression: nothing, or the
second group.  A port of `isIpLiteral` stands behind no other colon. -/
def portGroup (guarded : Bool) (text rest : List Char) :
    Option (Option String) :=
  match rest with
  | [] => some none
  | c :: digits =>
      if c = ':' ∧ digits ≠ [] ∧ digits.all Char.isDigit = true ∧
          (guarded = true → (text.take (text.length - rest.length)).getLast? ≠
            some ':') then
        some (some (String.ofList digits))
      else none

/-- `name.match(/^(host)(?::(\d+))?$/)`, of which only the second group is
read. -/
def matchHost (host : Regex) (guarded : Bool) (name : String) :
    Option (Option String) :=
  (host.ways name.toList).findSome? (portGroup guarded name.toList)

def isIpLiteral : String → Option (Option String) :=
  matchHost (.alt ipv4 ipv6) true

def hostname : Regex :=
  .sequence [.star (.seq label (.literal '.')), lastLabel,
    .optional (.literal '.')]

def isHostname : String → Option (Option String) :=
  matchHost hostname false

structure SrvRecord where
  name : String
  port : Nat
  priority : Nat
  deriving DecidableEq

/-- What is answered to each request: the decoded body of a page, unless the
request fails or the body is no JSON; the records of a name, unless there is an
error; the error of a name that is not found. -/
structure Network where
  fetch : String → Option JsValue
  resolveSrv : String → Option (List SrvRecord)
  lookup : String → Option JsValue

inductive Urls where
  | single (url : String)
  | many (urls : List String)
  deriving DecidableEq

def Urls.toList : Urls → List String
  | .single url => [url]
  | .many urls => urls

inductive ResolveError where
  | invalidHostname (name : String)
  | unresolved (name : String) (err : JsValue)

def ResolveError.message : ResolveError → String
  | .invalidHostname name => name ++ " isn't a valid hostname"
  | .unresolved name err =>
      "Unable to resolve " ++ name ++ ": " ++ stringify err

def SrvRecord.url (entry : SrvRecord) : String :=
  "https://" ++ entry.name ++ ":" ++ toString entry.port ++ "/"

/-- The records come in the order of the answer; the function that would sort
them is never called. -/
def dnsSrvResolve (network : Network) (name : String) : Option Urls :=
  match network.resolveSrv name with
  | none => none
  | some [] => none
  | some [entry] => some (.single entry.url)
  | some records => some (.many (records.map SrvRecord.url))

def dnsResolve (network : Network) (name : String) : Except ResolveError Urls :=
  match dnsSrvResolve network ("_matrix-fed._tcp." ++ name) with
  | some urls => .ok urls
  | none =>
      match dnsSrvResolve network ("_matrix._tcp." ++ name) with
      | some urls => .ok urls
      | none =>
          match network.lookup name with
          | none => .ok (.single ("https://" ++ name ++ ":8448/"))
          | some err => .error (.unresolved name err)

def literalUrl (name : String) (port : Option String) : String :=
  match port with
  | some _ => "https://" ++ name ++ "/"
  | none => "https://" ++ name ++ ":8448/"

def delegated (network : Network) (matrixServer : String) :
    Except ResolveError Urls :=
  match isIpLiteral matrixServer with
  | some port => .ok (.single (literalUrl matrixServer port))
  | none =>
      match isHostname matrixServer with
      | some (some _) => .ok (.single ("https://" ++ matrixServer ++ "/"))
      | _ => dnsResolve network matrixServer

/-- The page of a host that names its server. -/
def wellKnown (name : String) : String :=
  "https://" ++ name ++ "/.well-known/matrix/server"

def matrixResolve (network : Network) (name : String) :
    Except ResolveError Urls :=
  match isIpLiteral name with
  | some port => .ok (.single (literalUrl name port))
  | none =>
      match isHostname name with
      | none => .error (.invalidHostname name)
      | some (some _) => .ok (.single ("https://" ++ name ++ "/"))
      | some none =>
          match (network.fetch (wellKnown name)).bind
              (JsValue.property "m.server") with
          -- A server that is empty or no text is passed over.
          | some (.str matrixServer) =>
              if matrixServer = "" then dnsResolve network name
              else delegated network matrixServer
          | _ => dnsResolve network name

/-! The records that are used, and what is resolved without any. -/

/-- The records of the first of the two names that has any. -/
def srvAnswer (network : Network) (name : String) : List SrvRecord :=
  match network.resolveSrv ("_matrix-fed._tcp." ++ name) with
  | some (entry :: rest) => entry :: rest
  | _ => (network.resolveSrv ("_matrix._tcp." ++ name)).getD []

theorem dnsSrvResolve_cases (network : Network) (name : String) :
    (dnsSrvResolve network name = none ∧
        (network.resolveSrv name).getD [] = []) ∨
      ∃ urls entry rest, dnsSrvResolve network name = some urls ∧
        network.resolveSrv name = some (entry :: rest) ∧
        urls.toList = (entry :: rest).map SrvRecord.url := by
  unfold dnsSrvResolve
  split
  · rename_i h
    rw [h]
    exact .inl ⟨rfl, rfl⟩
  · rename_i h
    rw [h]
    exact .inl ⟨rfl, rfl⟩
  · rename_i entry h
    exact .inr ⟨_, entry, [], rfl, h, rfl⟩
  · rename_i records hnil hsingle h
    cases records with
    | nil => exact absurd rfl hnil
    | cons entry rest => exact .inr ⟨_, entry, rest, rfl, h, rfl⟩

theorem dnsResolve_cases (network : Network) (name : String) :
    (∃ urls, dnsResolve network name = .ok urls ∧
        srvAnswer network name ≠ [] ∧
        urls.toList = (srvAnswer network name).map SrvRecord.url) ∨
      (srvAnswer network name = [] ∧ dnsResolve network name =
        match network.lookup name with
        | none => .ok (.single ("https://" ++ name ++ ":8448/"))
        | some err => .error (.unresolved name err)) := by
  unfold dnsResolve srvAnswer
  rcases dnsSrvResolve_cases network ("_matrix-fed._tcp." ++ name) with
    ⟨hfed, hnone⟩ | ⟨urls, entry, rest, hfed, hanswer, hurls⟩
  · have hanswer : (match network.resolveSrv ("_matrix-fed._tcp." ++ name) with
        | some (entry :: rest) => entry :: rest
        | _ => (network.resolveSrv ("_matrix._tcp." ++ name)).getD []) =
          (network.resolveSrv ("_matrix._tcp." ++ name)).getD [] := by
      split
      · rename_i h
        rw [h] at hnone
        cases hnone
      · rfl
    rw [hfed, hanswer]
    rcases dnsSrvResolve_cases network ("_matrix._tcp." ++ name) with
      ⟨hold, hnil⟩ | ⟨urls, entry, rest, hold, hrecords, hurls⟩
    · rw [hold, hnil]
      exact .inr ⟨rfl, rfl⟩
    · rw [hold, hrecords]
      exact .inl ⟨urls, rfl, List.cons_ne_nil _ _, hurls⟩
  · rw [hfed, hanswer]
    exact .inl ⟨urls, rfl, List.cons_ne_nil _ _, hurls⟩

end TwakeKickstart.MatrixResolve
