import TwakeKickstart.IdentityServer.Validate.Email

namespace TwakeKickstart.IdentityServer.Invitation

open Library Utils

/-! The tables of the keys, the handlers that read them, and what
`POST /store-invite` writes into its answer.  No database call fails. -/

inductive Algorithm where
  | ed25519
  | curve25519

def Algorithm.name : Algorithm → String
  | ed25519 => "ed25519"
  | curve25519 => "curve25519"

structure KeyPair where
  keyId : String
  publicKey : String
  privateKey : String
  deriving DecidableEq

/-- What the primitives draw for one key pair. -/
structure Drawn where
  identifier : String
  publicKey : String
  privateKey : String

def generateKeyPair (algorithm : Algorithm) (drawn : Drawn) : KeyPair where
  keyId := algorithm.name ++ ":" ++ drawn.identifier
  publicKey := drawn.publicKey
  privateKey := drawn.privateKey

/-- A row of `longTermKeypairs`, whose primary key is the name. -/
structure LongTermRow extends KeyPair where
  name : String
  deriving DecidableEq

structure KeyTables where
  longTerm : List LongTermRow
  shortTerm : List KeyPair

def KeyPair.cell (row : KeyPair) : String → Cell
  | "keyID" => .text row.keyId
  | "public" => .text row.publicKey
  | "private" => .text row.privateKey
  | _ => .null

def LongTermRow.cell (row : LongTermRow) : String → Cell
  | "name" => .text row.name
  | column => row.toKeyPair.cell column

/-- `db.get` on one of the two tables. -/
def getRows {Row : Type} (cell : Row → String → Cell) (fields : List String)
    (filter : Filter) (rows : List Row) : Option (List Row) :=
  (getStatement fields filter).map fun statement =>
    rows.filter fun row => statement.selects (cell row)

def isNamed (name : String) (row : LongTermRow) : Bool :=
  (row.cell "name").same (.text name)

/-- The rows are found, and there are some. -/
def found {Row : Type} (rows : Option (List Row)) : Bool :=
  rows.any (!·.isEmpty)

/-- The current key becomes the previous one, in whose place it is. -/
def rotated (rows : List LongTermRow) : List LongTermRow :=
  if found (getRows LongTermRow.cell ["name"]
      [("name", .str "currentKey")] rows) then
    let left :=
      if found (getRows LongTermRow.cell ["name"]
          [("name", .str "previousKey")] rows) then
        rows.filter fun row => !isNamed "previousKey" row
      else rows
    left.map fun row =>
      if isNamed "currentKey" row then { row with name := "previousKey" }
      else row
  else rows

inductive KeyType where
  | longTerm
  | shortTerm

/-- `none` when the insertion is refused: the promise is never settled. -/
def createKeypair (type : KeyType) (algorithm : Algorithm) (drawn : Drawn)
    (tables : KeyTables) : KeyTables × Option KeyPair :=
  let keyPair := generateKeyPair algorithm drawn
  match type with
  | .longTerm =>
      let rows := rotated tables.longTerm
      if (rows.map LongTermRow.name).contains "currentKey" then
        ({ tables with longTerm := rows }, none)
      else
        ({ tables with longTerm := rows ++ [{ keyPair with
          name := "currentKey" }] }, some keyPair)
  | .shortTerm =>
      if (tables.shortTerm.map KeyPair.keyId).contains keyPair.keyId then
        (tables, none)
      else
        ({ tables with shortTerm := tables.shortTerm ++ [keyPair] },
          some keyPair)

/-- `getKeys`, which asks for no name: the first row is given for either
type. -/
def getKeys (tables : KeyTables) : Option KeyPair :=
  tables.longTerm.head?.map LongTermRow.toKeyPair

/-- The row that `bind` signs with. -/
def signingKey (tables : KeyTables) : Option LongTermRow :=
  (getRows LongTermRow.cell ["keyID", "private"] [] tables.longTerm).bind
    List.head?

/-! What is answered about a public key. -/

def isKeyValid {Row : Type} (cell : Row → String → Cell) (rows : List Row)
    (publicKey : String) : Nat × JsValue :=
  if publicKey = "" then (400, errMsg .missingParams)
  else
    match getRows cell ["public"] [("public", .str publicKey)] rows with
    | none => (500, errMsg .unknown errorObject)
    | some [] => (200, .obj [("valid", .bool false)])
    | some (_ :: _) => (200, .obj [("valid", .bool true)])

def isPubkeyValid (tables : KeyTables) (publicKey : String) : Nat × JsValue :=
  isKeyValid LongTermRow.cell tables.longTerm publicKey

def isEphemeralPubkeyValid (tables : KeyTables) (publicKey : String) :
    Nat × JsValue :=
  isKeyValid KeyPair.cell tables.shortTerm publicKey

/-! The answer. -/

structure Conf where
  serverName : String
  isMobilePhone : String → Bool

def validMediums : List String := ["email", "msisdn"]

structure PublicKey where
  keyValidityUrl : String
  publicKey : String
  deriving DecidableEq

def replaceLastCharacters (chars : List Char) : List Char :=
  let redactionCount := (chars.length * 2 + 4) / 5
  chars.take (chars.length - redactionCount) ++
    List.replicate redactionCount '*'

def redactAddress (medium address : String) : String :=
  if medium = "email" then
    let chars := address.toList
    String.ofList (replaceLastCharacters (chars.takeWhile (· != '@')) ++
      '@' :: replaceLastCharacters ((chars.dropWhile (· != '@')).drop 1))
  else String.ofList (replaceLastCharacters address.toList)

def pubkeyUrl (conf : Conf) : String :=
  "https://" ++ conf.serverName ++ "/_matrix/identity/v2/pubkey/isvalid"

def ephemeralPubkeyUrl (conf : Conf) : String :=
  "https://" ++ conf.serverName ++
    "/_matrix/identity/v2/pubkey/ephemeral/isvalid"

end TwakeKickstart.IdentityServer.Invitation
