import TwakeKickstart.Storage.Writes

namespace TwakeKickstart.Storage

open Library IdentityServer
open TomServer.Addressbook (AddressBook ContactRow columnText insertedRow)

/-! Whether what is written fits the columns, site by site and over runs. -/

variable {stringify : JsValue → String} {selected : Cells → Bool}

@[simp] theorem admits_optionText (limit : Nat) (text : Option String) :
    (SqlType.varchar limit).admits (text.elim .null .text) = true ↔
      ShortText limit text := by
  cases text <;> simp [ShortText]

@[simp] theorem admits_optionInt (n : Option Int) :
    SqlType.integer.admits (n.elim .null .int) = true ↔
      ∀ m ∈ n, isInt4 m = true := by
  cases n <;> simp

@[simp] theorem shortText_some (limit : Nat) (s : String) :
    ShortText limit (some s) ↔ s.length ≤ limit := by
  simp [ShortText]

theorem getUserUsage_eq (userMedia : List Nat) :
    getUserUsage userMedia = userMedia.sum :=
  List.sum_eq_foldl.symm

theorem word_length (field : Field) : field.word.length ≤ 8 := by
  cases field <;> decide

theorem bindField_length (medium : String) :
    (bindField medium).length ≤ 8 := by
  unfold bindField
  split <;> decide

theorem keyId_length {algorithm : Invitation.Algorithm}
    {drawn : Invitation.Drawn} (h : drawn.identifier.length = 11) :
    (Invitation.generateKeyPair algorithm drawn).keyId.length ≤ 64 := by
  rw [Invitation.generateKeyPair, String.length_append, String.length_append,
    h]
  cases algorithm <;> decide

/-! The rows that the sites insert. -/

section Rows

attribute [local simp] RowFits Table.columns_eq rowCells jsonOf
  IdentityServer.cell TokenRow.cell

theorem keyRow_fits (row : KeyRow) :
    RowFits Table.keys.columns (rowCells stringify .keys row) ↔
      row.name.length ≤ 32 := by
  simp

theorem accessToken_fits (row : TokenRow) :
    RowFits Table.accessTokens.columns (rowCells stringify .accessTokens row) ↔
      row.id.length ≤ 64 := by
  simp

theorem matrixToken_fits (row : TokenRow) :
    RowFits Table.matrixTokens.columns (rowCells stringify .matrixTokens row) ↔
      row.id.length ≤ 64 := by
  simp

theorem oneTimeToken_fits (row : OneTimeToken) :
    RowFits Table.oneTimeTokens.columns
        (rowCells stringify .oneTimeTokens row) ↔
      row.id.length ≤ 64 ∧ row.expires ≤ 2147483647 := by
  simp [isInt4_natCast]

theorem invitationToken_fits (row : InvitationToken) :
    RowFits Table.invitationTokens.columns
        (rowCells stringify .invitationTokens row) ↔
      row.id.length ≤ 64 := by
  simp

theorem hashRow_fits (row : HashRow) :
    RowFits Table.hashes.columns (rowCells stringify .hashes row) ↔
      row.hash.length ≤ 48 ∧ row.pepper.length ≤ 32 ∧ row.type.length ≤ 8 ∧
        ∀ active ∈ row.active, isInt4 active = true := by
  simp

theorem historyRow_fits (row : HistoryRow) :
    RowFits Table.userHistory.columns (rowCells stringify .userHistory row) ↔
      isInt4 row.active = true ∧ row.timestamp ≤ 2147483647 := by
  simp [isInt4_natCast]

theorem policyRow_fits (row : PolicyRow) :
    RowFits Table.userPolicies.columns (rowCells stringify .userPolicies row) ↔
      isInt4 row.accepted = true := by
  simp

theorem not_mapping_fits (row : Mapping) (long : 12 < row.sessionId.length) :
    ¬ RowFits Table.mappings.columns (rowCells stringify .mappings row) := by
  intro fits
  have hsession := fits ("session_id", .varchar 12) (by
    rw [Table.columns_eq]
    simp)
  rw [show rowCells stringify .mappings row "session_id" =
    .text row.sessionId from rfl, SqlType.admits_varchar_text] at hsession
  omega

theorem longTermRow_fits (row : Invitation.LongTermRow) :
    RowFits Table.longTermKeypairs.columns row.cell ↔
      row.keyId.length ≤ 64 := by
  simp [Invitation.LongTermRow.cell, Invitation.KeyPair.cell]

theorem keyPair_fits (row : Invitation.KeyPair) :
    RowFits Table.shortTermKeypairs.columns row.cell ↔
      row.keyId.length ≤ 64 := by
  simp [Invitation.KeyPair.cell]

theorem invitation_fits (row : TomServer.Invitations.Invitation) :
    RowFits Table.invitations.columns row.cell ↔
      row.id.length ≤ 64 ∧ row.sender.length ≤ 64 ∧
        ShortText 64 row.recipient ∧ ShortText 64 row.medium ∧
        (toString row.expiration).length ≤ 64 ∧
        (∀ accessed ∈ row.accessed, isInt4 accessed = true) ∧
        ShortText 64 row.matrixId := by
  simp [TomServer.Invitations.Invitation.cell]

theorem addressBook_fits (row : AddressBook) :
    RowFits Table.addressbooks.columns row.cell ↔
      row.id.length ≤ 64 ∧ row.owner.length ≤ 64 := by
  simp [AddressBook.cell]

theorem contactRow_fits (row : ContactRow) :
    RowFits Table.contacts.columns row.cell ↔
      ShortText 64 row.id ∧ row.addressbookId.length ≤ 64 ∧
        ShortText 64 row.mxid ∧ ShortText 64 row.displayName ∧
        ∀ active ∈ row.active, isInt4 active = true := by
  simp [ContactRow.cell]

theorem serverHash_fits (row : FederatedIdentityService.ServerHash) :
    RowFits Table.hashByServer.columns row.cell ↔ row.hash.length ≤ 48 := by
  simp [FederatedIdentityService.ServerHash.cell]

end Rows

/-! The sites. -/

namespace Site

attribute [local simp] operation Within ValuesFit RowFits Table.columns_eq

theorem insert_hash_fits {row : HashRow} (hash : row.hash.length = 43)
    (type : row.type.length ≤ 8) :
    RowFits Table.hashes.columns (rowCells stringify .hashes row) ↔
      row.pepper.length ≤ 32 ∧
        ∀ active ∈ row.active, isInt4 active = true := by
  have hhash : row.hash.length ≤ 48 := by omega
  rw [hashRow_fits, and_iff_right hhash, and_iff_right type]

theorem fits_iff (site : Site) (drawn : site.Drawn) :
    (site.operation stringify selected).Fits Table.columns ↔ site.Within := by
  cases site with
  | initializeValues row => exact keyRow_fits row
  | createSession token sub now =>
      exact (accessToken_fits _).trans
        (iff_true_intro (drawn.trans_le (by decide)))
  | createOneTimeToken conf id data now =>
      exact (oneTimeToken_fits _).trans
        (and_iff_right (drawn.trans_le (by decide)))
  | createInvitationToken id address data =>
      exact (invitationToken_fits _).trans
        (iff_true_intro (drawn.trans_le (by decide)))
  | fillTable driver args sid =>
      have hlong : 12 < sid.length := by
        rw [drawn]
        decide
      exact iff_false_intro (not_mapping_fits _ hlong)
  | validateSession now =>
      simp [isInt4_natCast]
  | updateHash env args pepper =>
      exact insert_hash_fits (drawn _) (word_length _)
  | bind env mxid mapping pepper =>
      have hhash : (bindRow env mxid mapping pepper).hash.length = 43 :=
        drawn _
      simp only [operation, TableOperation.Fits, Within,
        insert_hash_fits hhash (bindField_length _)]
      simp [bindRow]
  | insertHistory row => exact historyRow_fits row
  | updateHistory row =>
      simp [isInt4_natCast, and_comm]
  | deactivateHistory =>
      simp
  | activateHashes => simp
  | setPepper pepper => simp
  | renameCurrentKey => simp
  | createKeypair type algorithm drawnKey =>
      cases type with
      | longTerm =>
          exact (longTermRow_fits _).trans (iff_true_intro (keyId_length drawn))
      | shortTerm =>
          exact (keyPair_fits _).trans (iff_true_intro (keyId_length drawn))
  | fillPoliciesDB row => exact policyRow_fits row
  | acceptPolicy => simp
  | saveUserUsage userId userMedia =>
      have hsize : isInt4 (getUserUsage userMedia) = true ↔
          userMedia.sum ≤ 2147483647 := by
        rw [isInt4_natCast, getUserUsage_eq]
      simp [hsize]
  | insertMatrixToken driver token uid now => exact matrixToken_fits _
  | saveRecoveryWords driver userId words =>
      simp
  | updateRecoveryWords driver words =>
      simp
  | createInvitation now token payload =>
      have hid : token.length ≤ 64 := drawn.trans_le (by decide)
      simp only [operation, TableOperation.Fits, invitation_fits, Within]
      simp [TomServer.Invitations.createInvitation, hid, ShortText]
  | processInvitation userId =>
      simp
  | createUserAddressBook row =>
      exact (addressBook_fits row).trans
        (and_iff_right (drawn.trans_le (by decide)))
  | insertContact driver contact id addressbookId =>
      have hid : id.length ≤ 64 := drawn.trans_le (by decide)
      simp only [operation, TableOperation.Fits, Within, contactRow_fits]
      simp [insertedRow, hid]
  | updateContact driver values =>
      have hflag : ∀ active : Bool,
          isInt4 (if active = true then 1 else 0) = true := by decide
      cases hactive : values.active with
      | none =>
          simp [hactive]
      | some active =>
          simp [hactive, hflag]
  | createVisibilitySettings driver userId body =>
      simp
  | updateVisibilitySettings driver body =>
      simp only [operation, TableOperation.Fits, Within, ValuesFit,
        List.forall_mem_map, Table.columns_eq]
      refine forall₂_congr fun entry _ => ?_
      simp [@eq_comm String _ entry.1]
  | lookupDiff since =>
      simp [inRange, SqlType.reads]
  | insertUserSettings userId settings version =>
      simp
  | updateUserSettings settings version =>
      simp
  | insertServerHash row => exact serverHash_fits row

end Site

/-! Runs. -/

/-- One statement of a request or of a job: a site writes, or rows are
deleted. -/
inductive Step where
  | write (site : Site) (selected : Cells → Bool)
  | delete (table : Table) (selected : Cells → Bool)

namespace Step

def operation (stringify : JsValue → String) : Step → TableOperation Table
  | write site selected => site.operation stringify selected
  | delete table selected => .delete table selected

def Drawn : Step → Prop
  | write site _ => site.Drawn
  | delete _ _ => True

def Within : Step → Prop
  | write site _ => site.Within
  | delete _ _ => True

theorem fits_iff (step : Step) (drawn : step.Drawn) :
    (step.operation stringify).Fits Table.columns ↔ step.Within := by
  cases step with
  | write site selected => exact site.fits_iff drawn
  | delete table selected => exact Iff.rfl

end Step

theorem databaseFits_empty : DatabaseFits Table.columns fun _ => [] := by
  intro table cells hcells
  cases hcells

/-- An invitation and its acceptance. -/
def acceptedInvitation : List Step :=
  [.write (.createInvitation 1700000000000
      "018bcfe5-6800-7000-8000-000000000000"
      ⟨"@alice:example.org", some "bob@example.org", some "email"⟩)
      fun _ => false,
    .write (.processInvitation "@bob:example.org") fun _ => true]

/-- A time of the last years does not fit the history. -/
def aliceJoins : Step :=
  .write (.insertHistory ⟨"@alice:example.org", 1, 1700000000000⟩)
    fun _ => false

end TwakeKickstart.Storage
