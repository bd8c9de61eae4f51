import Mathlib.Algebra.Ring.Nat
import TwakeKickstart.Storage.Tables
import TwakeKickstart.CommonSettings.Service
import TwakeKickstart.FederatedIdentityService.Db
import TwakeKickstart.IdentityServer.Account.Register
import TwakeKickstart.IdentityServer.Invitation.StoreInvit
import TwakeKickstart.IdentityServer.Lookup.UpdateHash
import TwakeKickstart.IdentityServer.ThreePid.Bind
import TwakeKickstart.IdentityServer.Validate.Email
import TwakeKickstart.TomServer.Addressbook.Service
import TwakeKickstart.TomServer.Invitations.RateLimit

namespace TwakeKickstart.Storage

open Library
open IdentityServer
open FederatedIdentityService (ServerHash)
open TomServer.Addressbook (AddressBook ContactCreationPayload
  ContactUpdatePayload ContactRow columnText insertedRow)
open TomServer.Invitations (InvitationPayload expirationDelay)

/-! Where the packages write to their database, and the range that each value
written has. -/

/-- The sum of the sizes of a user's media. -/
def getUserUsage (userMedia : List Nat) : Nat := userMedia.foldl (· + ·) 0

/-- `{ matrix_id: userId, ...visibilitySettings }`; the body of the request is
not checked. -/
def visibilityCells (driver : Driver) (userId : String)
    (body : List (String × JsValue)) : Cells := fun column =>
  match body.lookup column with
  | some value => driver.bound value
  | none => if column = "matrix_id" then .text userId else .null

def ShortText (limit : Nat) (text : Option String) : Prop :=
  ∀ s ∈ text, s.length ≤ limit

/-- One place of the code that hands values to the database, with what it takes
them from. -/
inductive Site where
  -- Identity server.
  | initializeValues (row : KeyRow)
  | createSession (token sub : String) (now : Nat)
  | createOneTimeToken (conf : Config) (id : String) (data : JsValue)
      (now : Nat)
  | createInvitationToken (id address : String) (data : JsValue)
  | fillTable (driver : Driver) (args : RequestTokenArgs) (sid : String)
  | validateSession (now : Nat)
  | updateHash (env : Environment) (args : UpdateArgs) (pepper : String)
  | bind (env : Environment) (mxid : JsValue) (mapping : Mapping)
      (pepper : String)
  | insertHistory (row : HistoryRow)
  | updateHistory (row : HistoryRow)
  | deactivateHistory
  | activateHashes
  | setPepper (pepper : String)
  | renameCurrentKey
  | createKeypair (type : Invitation.KeyType)
      (algorithm : Invitation.Algorithm) (drawn : Invitation.Drawn)
  | fillPoliciesDB (row : PolicyRow)
  | acceptPolicy
  | saveUserUsage (userId : String) (userMedia : List Nat)
  -- Tom-server.
  | insertMatrixToken (driver : Driver) (token uid : JsValue) (now : Nat)
  | saveRecoveryWords (driver : Driver) (userId : String) (words : JsValue)
  | updateRecoveryWords (driver : Driver) (words : JsValue)
  | createInvitation (now : Nat) (token : String)
      (payload : InvitationPayload)
  | processInvitation (userId : String)
  | createUserAddressBook (row : AddressBook)
  | insertContact (driver : Driver) (contact : ContactCreationPayload)
      (id addressbookId : String)
  | updateContact (driver : Driver) (values : ContactUpdatePayload)
  | createVisibilitySettings (driver : Driver) (userId : String)
      (body : List (String × JsValue))
  | updateVisibilitySettings (driver : Driver)
      (body : List (String × JsValue))
  | lookupDiff (since : Int)
  -- Common settings and the federated identity service.
  | insertUserSettings (userId settings : String) (version : Int)
  | updateUserSettings (settings : String) (version : Int)
  | insertServerHash (row : ServerHash)

namespace Site

/-- The statement of the site; `selected` are the rows that it updates. -/
def operation (stringify : JsValue → String) (selected : Cells → Bool) :
    Site → TableOperation Table
  | initializeValues row => .insert .keys (rowCells stringify .keys row)
  | createSession token sub now =>
      .insert .accessTokens (rowCells stringify .accessTokens
        { id := token, data := some (tokenContent (.str sub) now) })
  | createOneTimeToken conf id data now =>
      let delay := if conf.mailLinkDelay > 0 then conf.mailLinkDelay else 600
      .insert .oneTimeTokens (rowCells stringify .oneTimeTokens
        { id, expires := now + 1000 * delay, data := some data })
  | createInvitationToken id address data =>
      .insert .invitationTokens (rowCells stringify .invitationTokens
        { id, address, data := some data })
  | fillTable driver args sid =>
      .insert .mappings
        (rowCells stringify .mappings (args.mapping driver sid))
  | validateSession now =>
      .update .mappings [("valid", .int 1), ("submit_time", .int now)] selected
  | updateHash env args pepper =>
      .insert .hashes (rowCells stringify .hashes (args.row env pepper))
  | bind env mxid mapping pepper =>
      .insert .hashes
        (rowCells stringify .hashes (bindRow env mxid mapping pepper))
  | insertHistory row =>
      .insert .userHistory (rowCells stringify .userHistory row)
  | updateHistory row =>
      .update .userHistory [("address", .text row.address),
        ("timestamp", .int row.timestamp), ("active", .int row.active)] selected
  | deactivateHistory => .update .userHistory [("active", .int 0)] selected
  | activateHashes => .update .hashes [("active", .int 1)] selected
  | setPepper pepper => .update .keys [("data", .text pepper)] selected
  | renameCurrentKey =>
      .update .longTermKeypairs [("name", .text "previousKey")] selected
  | createKeypair type algorithm drawn =>
      let keyPair := Invitation.generateKeyPair algorithm drawn
      match type with
      | .longTerm =>
          .insert .longTermKeypairs
            (Invitation.LongTermRow.mk keyPair "currentKey").cell
      | .shortTerm => .insert .shortTermKeypairs keyPair.cell
  | fillPoliciesDB row =>
      .insert .userPolicies (rowCells stringify .userPolicies row)
  | acceptPolicy => .update .userPolicies [("accepted", .int 1)] selected
  | saveUserUsage userId userMedia =>
      .insert .userQuotas fun
        | "user_id" => .text userId
        | "size" => .int (getUserUsage userMedia)
        | _ => .null
  | insertMatrixToken driver token uid now =>
      .insert .matrixTokens (rowCells stringify .matrixTokens
        { id := driver.text token, data := some (tokenContent uid now) })
  | saveRecoveryWords driver userId words =>
      .insert .recoveryWords fun
        | "userId" => .text userId
        | "words" => driver.bound words
        | _ => .null
  | updateRecoveryWords driver words =>
      .update .recoveryWords [("words", driver.bound words)] selected
  | createInvitation now token payload =>
      .insert .invitations
        (TomServer.Invitations.createInvitation now token payload).cell
  | processInvitation userId =>
      .update .invitations [("accessed", .int 1), ("matrix_id", .text userId)]
        selected
  | createUserAddressBook row => .insert .addressbooks row.cell
  | insertContact driver contact id addressbookId =>
      .insert .contacts (insertedRow driver contact id addressbookId).cell
  | updateContact driver values =>
      .update .contacts
        (("display_name",
            (columnText driver values.displayName).elim .null .text) ::
          values.active.elim [] fun active =>
            [("active", .int (if active then 1 else 0))]) selected
  | createVisibilitySettings driver userId body =>
      .insert .profileSettings (visibilityCells driver userId body)
  | updateVisibilitySettings driver body =>
      .update .profileSettings
        (body.map fun (column, value) => (column, driver.bound value)) selected
  | lookupDiff since => .select .userHistory [("timestamp", .int since)]
  | insertUserSettings userId settings version =>
      .insert .usersettings fun
        | "matrix_id" => .text userId
        | "settings" => .text settings
        | "version" => .int version
        | _ => .null
  | updateUserSettings settings version =>
      .update .usersettings
        [("settings", .text settings), ("version", .int version)] selected
  | insertServerHash row => .insert .hashByServer row.cell

/-- What the primitives promise of the strings that they give: the length of
`randomString(64)`, of a UUID, of the identifier of a key, and of a SHA-256
hash in unpadded base64. -/
def Drawn : Site → Prop
  | createSession token _ _ => token.length = 64
  | createOneTimeToken _ id _ _ => id.length = 64
  | createInvitationToken id _ _ => id.length = 64
  | fillTable _ _ sid => sid.length = 64
  | updateHash env _ _ => ∀ text, (env.sha256 text).length = 43
  | bind env _ _ _ => ∀ text, (env.sha256 text).length = 43
  | createKeypair _ _ drawn => drawn.identifier.length = 11
  | createInvitation _ token _ => token.length = 36
  | createUserAddressBook row => row.id.length = 36
  | insertContact _ _ id _ => id.length = 36
  | _ => True

/-- The values that the site takes from elsewhere are in range. -/
def Within : Site → Prop
  | initializeValues row => row.name.length ≤ 32
  | createOneTimeToken conf _ _ now =>
      now + 1000 * (if conf.mailLinkDelay > 0 then conf.mailLinkDelay else 600)
        ≤ 2147483647
  | fillTable _ _ _ => False
  | validateSession now => now ≤ 2147483647
  | updateHash _ args pepper =>
      pepper.length ≤ 32 ∧ ∀ active ∈ args.active, isInt4 active = true
  | bind _ _ _ pepper => pepper.length ≤ 32
  | insertHistory row =>
      isInt4 row.active = true ∧ row.timestamp ≤ 2147483647
  | updateHistory row =>
      isInt4 row.active = true ∧ row.timestamp ≤ 2147483647
  | fillPoliciesDB row => isInt4 row.accepted = true
  | saveUserUsage userId userMedia =>
      userId.length ≤ 64 ∧ userMedia.sum ≤ 2147483647
  | insertMatrixToken driver token _ _ => (driver.text token).length ≤ 64
  | createInvitation now _ payload =>
      payload.sender.length ≤ 64 ∧ ShortText 64 payload.recipient ∧
        ShortText 64 payload.medium ∧
        (toString (now + expirationDelay)).length ≤ 64
  | processInvitation userId => userId.length ≤ 64
  | createUserAddressBook row => row.owner.length ≤ 64
  | insertContact driver contact _ addressbookId =>
      addressbookId.length ≤ 64 ∧
        ShortText 64 (columnText driver contact.mxid) ∧
        ShortText 64 (columnText driver contact.displayName)
  | updateContact driver values =>
      ShortText 64 (columnText driver values.displayName)
  | createVisibilitySettings driver userId body =>
      (SqlType.varchar 64).admits
          (visibilityCells driver userId body "matrix_id") = true ∧
        (SqlType.varchar 20).admits
          (visibilityCells driver userId body "visibility") = true
  | updateVisibilitySettings driver body =>
      ∀ entry ∈ body,
        (entry.1 = "matrix_id" →
          (SqlType.varchar 64).admits (driver.bound entry.2) = true) ∧
        (entry.1 = "visibility" →
          (SqlType.varchar 20).admits (driver.bound entry.2) = true)
  | lookupDiff since => isInt4 since = true
  | insertUserSettings userId _ version =>
      userId.length ≤ 64 ∧ isInt4 version = true
  | updateUserSettings _ version => isInt4 version = true
  | insertServerHash row => row.hash.length ≤ 48
  | _ => True

end Site

end TwakeKickstart.Storage
