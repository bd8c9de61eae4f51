import TwakeKickstart.Library.Columns
import TwakeKickstart.IdentityServer.Effects

namespace TwakeKickstart.Storage

open Library
open IdentityServer (Collections Row)

/-! The tables that the packages declare. -/

inductive Table where
  | accessTokens
  | attempts
  | oneTimeTokens
  | hashes
  | invitationTokens
  | keys
  | longTermKeypairs
  | mappings
  | shortTermKeypairs
  | userHistory
  | userPolicies
  | userQuotas
  | invitations
  | addressbooks
  | contacts
  | recoveryWords
  | matrixTokens
  | rooms
  | usersettings
  | profileSettings
  | hashByServer
  deriving DecidableEq

namespace Table

/-- `tables` of the identity server, then of the tom-server, which declares
`userQuotas`, `invitations`, `addressbooks` and `contacts` in the same words,
then of the federated identity service. -/
def declaration : Table → String
  | accessTokens => "id varchar(64) PRIMARY KEY, data text"
  | attempts => "email text PRIMARY KEY, expires int, attempt int"
  | oneTimeTokens =>
      "id varchar(64) PRIMARY KEY, expires int, data text"
  | hashes =>
      "hash varchar(48) PRIMARY KEY, pepper varchar(32), " ++
        "type varchar(8), value text, active integer"
  | invitationTokens =>
      "id varchar(64) PRIMARY KEY, address text, data text"
  | keys => "name varchar(32) PRIMARY KEY, data text"
  | longTermKeypairs =>
      "name text PRIMARY KEY, keyID varchar(64), public text, private text"
  | mappings =>
      "client_secret varchar(255) PRIMARY KEY, session_id varchar(12), " ++
        "medium varchar(8), valid integer, address text, " ++
        "submit_time integer, send_attempt integer"
  | shortTermKeypairs =>
      "keyID varchar(64) PRIMARY KEY, public text, private text, " ++
        "active integer"
  | userHistory =>
      "address text PRIMARY KEY, active integer, timestamp integer"
  | userPolicies => "user_id text, policy_name text, accepted integer"
  | userQuotas => "user_id varchar(64) PRIMARY KEY, size int"
  | invitations =>
      "id varchar(64) PRIMARY KEY, sender varchar(64), " ++
        "recipient varchar(64), medium varchar(64), " ++
        "expiration varchar(64), accessed int, room_id varchar(64), " ++
        "matrix_id varchar(64)"
  | addressbooks => "id varchar(64) PRIMARY KEY, owner varchar(64)"
  | contacts =>
      "id varchar(64) PRIMARY KEY, addressbook_id varchar(64), " ++
        "mxid varchar(64), display_name varchar(64), active int"
  | recoveryWords => "userId text PRIMARY KEY, words TEXT"
  | matrixTokens => "id varchar(64) PRIMARY KEY, data text"
  | rooms => "id varchar(64) PRIMARY KEY, filter varchar(64)"
  | usersettings =>
      "matrix_id varchar(64) PRIMARY KEY, settings jsonb, version int"
  | profileSettings =>
      "matrix_id varchar(64) PRIMARY KEY, " ++
        "visibility VARCHAR(20) NOT NULL, visible_fields TEXT[] NOT NULL"
  | hashByServer =>
      "hash varchar(48), server text, pepper text, " ++
        "PRIMARY KEY (hash, server, pepper)"

def columns (table : Table) : TableColumns := columnsOf table.declaration

theorem columns_eq (table : Table) :
    table.columns = match table with
      | accessTokens => [("id", .varchar 64), ("data", .text)]
      | attempts =>
          [("email", .text), ("expires", .integer), ("attempt", .integer)]
      | oneTimeTokens =>
          [("id", .varchar 64), ("expires", .integer), ("data", .text)]
      | hashes =>
          [("hash", .varchar 48), ("pepper", .varchar 32),
            ("type", .varchar 8), ("value", .text), ("active", .integer)]
      | invitationTokens =>
          [("id", .varchar 64), ("address", .text), ("data", .text)]
      | keys => [("name", .varchar 32), ("data", .text)]
      | longTermKeypairs =>
          [("name", .text), ("keyID", .varchar 64), ("public", .text),
            ("private", .text)]
      | mappings =>
          [("client_secret", .varchar 255), ("session_id", .varchar 12),
            ("medium", .varchar 8), ("valid", .integer), ("address", .text),
            ("submit_time", .integer), ("send_attempt", .integer)]
      | shortTermKeypairs =>
          [("keyID", .varchar 64), ("public", .text), ("private", .text),
            ("active", .integer)]
      | userHistory =>
          [("address", .text), ("active", .integer), ("timestamp", .integer)]
      | userPolicies =>
          [("user_id", .text), ("policy_name", .text), ("accepted", .integer)]
      | userQuotas => [("user_id", .varchar 64), ("size", .integer)]
      | invitations =>
          [("id", .varchar 64), ("sender", .varchar 64),
            ("recipient", .varchar 64), ("medium", .varchar 64),
            ("expiration", .varchar 64), ("accessed", .integer),
            ("room_id", .varchar 64), ("matrix_id", .varchar 64)]
      | addressbooks => [("id", .varchar 64), ("owner", .varchar 64)]
      | contacts =>
          [("id", .varchar 64), ("addressbook_id", .varchar 64),
            ("mxid", .varchar 64), ("display_name", .varchar 64),
            ("active", .integer)]
      | recoveryWords => [("userId", .text), ("words", .text)]
      | matrixTokens => [("id", .varchar 64), ("data", .text)]
      | rooms => [("id", .varchar 64), ("filter", .varchar 64)]
      | usersettings =>
          [("matrix_id", .varchar 64), ("settings", .jsonb),
            ("version", .integer)]
      | profileSettings =>
          [("matrix_id", .varchar 64), ("visibility", .varchar 20),
            ("visible_fields", .textArray)]
      | hashByServer =>
          [("hash", .varchar 48), ("server", .text), ("pepper", .text)] := by
  have hone {text : List Char} := @String.toList_ofList text
  have htwo {first second : List Char} :=
    @toList_append_ofList _ _ first second hone rfl
  have hthree {first second third : List Char} :=
    @toList_append_ofList _ _ _ third (@htwo first second) rfl
  have hfour {first second third fourth : List Char} :=
    @toList_append_ofList _ _ _ fourth (@hthree first second third) rfl
  cases table with
  | hashes => exact columnsOf_eq htwo (by decide +kernel)
  | mappings => exact columnsOf_eq hthree (by decide +kernel)
  | shortTermKeypairs => exact columnsOf_eq htwo (by decide +kernel)
  | invitations => exact columnsOf_eq hfour (by decide +kernel)
  | contacts => exact columnsOf_eq htwo (by decide +kernel)
  | profileSettings => exact columnsOf_eq htwo (by decide +kernel)
  | hashByServer => exact columnsOf_eq htwo (by decide +kernel)
  | _ => exact columnsOf_eq hone (by decide +kernel)

end Table

/-! The rows of the identity server's store as a database holds them. -/

/-- The JSON of a row that has some, as it stands in the column `data`. -/
def jsonOf : (table : Collections) → Row table → Option JsValue
  | .accessTokens, row => row.data
  | .matrixTokens, row => row.data
  | .oneTimeTokens, row => row.data
  | .invitationTokens, row => row.data
  | _, _ => none

/-- `stringify` is `JSON.stringify`. -/
def rowCells (stringify : JsValue → String) (table : Collections)
    (row : Row table) : Cells := fun column =>
  match column, jsonOf table row with
  | "data", some value => .text (stringify value)
  | column, _ => IdentityServer.cell table row column

end TwakeKickstart.Storage
