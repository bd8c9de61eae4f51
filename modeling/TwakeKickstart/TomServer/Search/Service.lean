import TwakeKickstart.Library.JsonText
import TwakeKickstart.Library.Paging
import TwakeKickstart.TomServer.UserInfo.Service

namespace TwakeKickstart.TomServer.Search

open Library Utils
open Addressbook (Contact listedContacts truthy)
open IdentityServer (SupportedDatabases UserDb)
open UserInfo (ProfileRow)

/-! `_search`: the users that match a text in the Matrix profiles, in the
address book of the caller and in the user directory, up to the page that is
asked for. -/

/-- A number in an url-encoded body: ASCII digits, and more of them behind a
point if there is one. -/
structure Numeral where
  whole : List Char
  fraction : Option (List Char) := none
  named : whole ≠ []
  wholeDigits : whole.all Char.isDigit = true
  fractionDigits : (fraction.getD []).all Char.isDigit = true

/-- A limit or an offset: a number of a JSON body, or a text. -/
inductive Amount where
  | number (value : ℚ)
  | text (numeral : Numeral)

structure Query where
  owner : String
  val : String
  limit : Option Amount := none
  offset : Option Amount := none

structure Config where
  enableAdditionalFeatures : Bool
  enableUserDirectory : Bool
  matrixEngine : SupportedDatabases
  serverName : String
  addressbook : Addressbook.Service

structure Registry where
  profiles : List ProfileRow
  users : UserDb
  addressbook : Addressbook.Store

/-! The searches in the three sources. -/

def includes (text predicate : String) : Bool :=
  decide (predicate.toList <:+: text.toList)

/-- `none` when the test throws. -/
def contactMatches (predicate : String) (contact : Contact) : Option Bool :=
  match contact.mxid with
  | none => some false
  | some mxid =>
      if mxid = "" || !isMatrixId mxid then some false
      else if includes mxid predicate then some true
      else contact.displayName.map (includes · predicate)

/-- `Array.prototype.filter` with a test that may throw. -/
def filterContacts (predicate : String) :
    List Contact → Option (List Contact)
  | [] => some []
  | contact :: rest =>
      (contactMatches predicate contact).bind fun wanted =>
        (filterContacts predicate rest).map fun kept =>
          if wanted then contact :: kept else kept

/-- `none` when the promise is rejected. -/
def addressbookPromise (config : Config) (registry : Registry)
    (owner predicate : String) : Option (List String) :=
  if predicate = "" ∨ owner = "" then some []
  else
    (filterContacts predicate (listedContacts config.addressbook owner
      registry.addressbook false none)).map (·.filterMap (·.mxid))

/-- The IDs of the users; a user ID that makes no Matrix ID is left out. -/
def matrixIds (serverName : String) (uids : List (Option String)) :
    List String :=
  uids.filterMap fun uid =>
    uid.bind fun uid =>
      if uid = "" then none
      else if isMatrixId uid then some uid
      else (toMatrixId (some uid) serverName).toOption

def matrixDbPromise (config : Config) (registry : Registry)
    (predicate : String) : List String :=
  if predicate = "" ∨ config.enableUserDirectory = false then []
  else
    let pattern := '%' :: (predicate.toList ++ ['%'])
    let rules := config.matrixEngine.likeRules
    matrixIds config.serverName ((registry.profiles.filter fun row =>
      rules.like pattern row.userId.toList ||
        row.displayname.any fun name =>
          rules.like pattern name.toList).map fun row => some row.userId)

def searchFields : List String :=
  ["cn", "displayName", "sn", "givenName", "uid", "mail", "mobile"]

def userDbPromise (config : Config) (registry : Registry)
    (predicate : String) : Option (List String) :=
  if predicate = "" ∨ config.enableAdditionalFeatures = false then some []
  else
    (registry.users.matching ["uid"] searchFields predicate).map fun rows =>
      matrixIds config.serverName (rows.map (·.lookup "uid"))

/-! The merge; a source that fails has no users. -/

structure Found where
  active : List String
  inactive : List String
  activeOnce : active.Nodup
  inactiveOnce : inactive.Nodup
  apart : ∀ id ∈ inactive, id ∉ active

/-- The sets of the active and of the other users. -/
def Found.ofLists (actives others : List String) : Found where
  active := actives.eraseDups
  inactive := (others.filter fun mxid => mxid ∉ actives.eraseDups).eraseDups
  activeOnce := nodup_eraseDups actives
  inactiveOnce := nodup_eraseDups _
  apart := fun _ hid => of_decide_eq_true
    (List.mem_filter.mp (List.mem_eraseDups.mp hid)).2

def found (config : Config) (registry : Registry) (owner predicate : String) :
    Found :=
  .ofLists
    (matrixDbPromise config registry predicate ++
      (addressbookPromise config registry owner predicate).getD [])
    ((userDbPromise config registry predicate).getD [])

/-! The page. -/

/-- `Array.prototype.sort` -/
def sorted (ids : List String) : List String :=
  ids.mergeSort fun a b => unitsLe (codeUnits a) (codeUnits b)

def Found.combinedIds (found : Found) : List String :=
  sorted found.active ++ sorted found.inactive

/-- `value || default` -/
def orDefault (value : Option Amount) (default : ℚ) : Amount :=
  match value with
  | none => .number default
  | some (.number n) => if n = 0 then .number default else .number n
  | some (.text numeral) => .text numeral

/-- What `slice` makes of a number: the part before the point. -/
def truncate (value : ℚ) : Int := value.num.tdiv value.den

/-- The digits behind the point, at most so many. -/
def decimals (rest : ℚ) : Nat → List Char
  | 0 => []
  | count + 1 =>
      if rest = 0 then []
      else digitChar ⌊10 * rest⌋₊ :: decimals (Int.fract (10 * rest)) count

/-- A number as a text; the decimals of a JSON number come to an end. -/
def numberText (value : ℚ) : List Char :=
  let behind := decimals (Int.fract |value|) value.den
  (if value < 0 then ['-'] else []) ++ decimal ⌊|value|⌋₊ ++
    if behind = [] then [] else '.' :: behind

/-- What `slice` makes of a text: the digits before the point count, with a
sign before them; `NaN` counts as 0. -/
def textValue (text : List Char) : Int :=
  let (unsigned, negative) : List Char × Bool :=
    match text with
    | '-' :: rest => (rest, true)
    | text => (text, false)
  let digits := unsigned.takeWhile Char.isDigit
  let behind := unsigned.dropWhile Char.isDigit
  if behind = [] ∨ behind.head? = some '.' ∧
      behind.tail.all Char.isDigit then
    if negative then -digitsValue digits else digitsValue digits
  else 0

namespace Numeral

def text (numeral : Numeral) : List Char :=
  numeral.whole ++
    match numeral.fraction with
    | none => []
    | some fraction => '.' :: fraction

def value (numeral : Numeral) : ℚ :=
  let fraction := numeral.fraction.getD []
  digitsValue fraction / 10 ^ fraction.length + digitsValue numeral.whole

end Numeral

namespace Amount

def toText : Amount → List Char
  | number n => numberText n
  | text numeral => numeral.text

def value : Amount → ℚ
  | number n => n
  | text numeral => numeral.value

def toInteger (amount : Amount) : Int := truncate amount.value

/-- What `slice` makes of `left + right`, which joins texts. -/
def plus : Amount → Amount → Int
  | number a, number b => truncate (a + b)
  | left, right => textValue (left.toText ++ right.toText)

end Amount

/-- The IDs of a page, before what is known about the users is added. -/
structure Selected where
  paginatedActiveIds : List String
  paginatedInactiveIds : List String

def Found.page (found : Found) (limit offset : Option Amount) : Selected :=
  let limit := orDefault limit 30
  let offset := orDefault offset 0
  let paginatedIds := slice found.combinedIds offset.toInteger
    (offset.plus limit)
  { paginatedActiveIds := paginatedIds.filter fun id => id ∈ found.active
    paginatedInactiveIds :=
      paginatedIds.filter fun id => id ∈ found.inactive }

def search (config : Config) (registry : Registry) (data : Query) : Selected :=
  if data.val = "" then ⟨[], []⟩
  else (found config registry data.owner data.val).page data.limit data.offset

end TwakeKickstart.TomServer.Search
