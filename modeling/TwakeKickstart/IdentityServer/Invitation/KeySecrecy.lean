import TwakeKickstart.IdentityServer.Invitation.Handler

namespace TwakeKickstart.IdentityServer.Invitation.Handler

open Library Utils

/-! Two runs of the calls that differ in the private keys alone. -/

/-- The call, for which another private key is drawn. -/
def Arrival.withPrivate (call : Arrival) (privateKey : String) : Arrival :=
  { call with drawn := { call.drawn with privateKey } }

def blankKey (row : LongTermRow) : LongTermRow :=
  { row with privateKey := "" }

def blankToken (row : InvitationToken) : InvitationToken :=
  { row with data := none }

/-- The server without the private keys and the stored invitations, which hold
such keys. -/
def Server.blank (server : Server) : Server where
  store := Function.update server.store .invitationTokens
    ((server.store .invitationTokens).map blankToken)
  keys := {
    longTerm := server.keys.longTerm.map blankKey
    shortTerm := [] }

/-- A call of both runs, with the private key of the second. -/
structure TwinCall where
  call : Arrival
  otherKey : String

def TwinCall.other (twin : TwinCall) : Arrival :=
  twin.call.withPrivate twin.otherKey

/-- What the calls give out, one after another. -/
def outputs (env : Environment) (conf : Setup) :
    List Arrival → Server → List Output
  | [], _ => []
  | call :: calls, server =>
      (StoreInvit env conf call server).2 ::
        outputs env conf calls (StoreInvit env conf call server).1

/-- Nothing that is given out depends on the private keys. -/
def KeepsSecret (env : Environment) (conf : Setup) (twins : List TwinCall)
    (start other : Server) : Prop :=
  outputs env conf (twins.map TwinCall.call) start =
    outputs env conf (twins.map TwinCall.other) other

section Blank

variable {env : Environment} {conf : Setup} {call : Arrival}

theorem conflicts_ids (rows : List InvitationToken) (row : InvitationToken) :
    conflicts .invitationTokens rows row =
      (rows.map InvitationToken.id).any fun id =>
        (Cell.text id).same (.text row.id) := by
  rw [List.any_map]
  rfl

theorem ids_blank (rows : List InvitationToken) :
    (rows.map blankToken).map InvitationToken.id =
      rows.map InvitationToken.id := by
  rw [List.map_map]
  rfl

theorem retired_blankKey (row : LongTermRow) :
    retired (blankKey row) = blankKey (retired row) := by
  unfold retired
  by_cases hcurrent : row.name = "currentKey"
  · rw [if_pos hcurrent, if_pos (show (blankKey row).name = _ from hcurrent)]
    rfl
  · rw [if_neg hcurrent, if_neg (show ¬ (blankKey row).name = _ from hcurrent)]

theorem rotated_blankKey (rows : List LongTermRow) :
    rotated (rows.map blankKey) = (rotated rows).map blankKey := by
  rw [rotated_eq, rotated_eq, List.any_map]
  change (if (rows.any fun row => row.name == "currentKey") = true then _
    else _) = _
  split
  · rw [List.filter_map, List.map_map, List.map_map]
    refine List.map_congr_left fun row _ => ?_
    exact retired_blankKey row
  · rfl

theorem givenPublic_blank (call : Arrival) (rows : List LongTermRow) :
    givenPublic call (rows.map blankKey) = givenPublic call rows := by
  unfold givenPublic
  rw [rotated_blankKey]
  cases rotated rows with
  | nil => rfl
  | cons row rest => rfl

end Blank

section Twins

variable {env : Environment} {conf : Setup} {twin : TwinCall}
variable {server other : Server}

theorem store_of_blank (alike : server.blank = other.blank)
    (table : Collections) (h : table ≠ .invitationTokens) :
    server.store table = other.store table := by
  have htables := congrFun (congrArg Server.store alike) table
  simpa only [Server.blank, Function.update_of_ne h] using htables

theorem rows_of_blank (alike : server.blank = other.blank) :
    (server.store .invitationTokens).map blankToken =
      (other.store .invitationTokens).map blankToken := by
  have htables := congrFun (congrArg Server.store alike) .invitationTokens
  simpa only [Server.blank, Function.update_self] using htables

theorem keys_of_blank (alike : server.blank = other.blank) :
    server.keys.longTerm.map blankKey = other.keys.longTerm.map blankKey :=
  congrArg (fun server => server.keys.longTerm) alike

theorem conflicts_twin (alike : server.blank = other.blank)
    (invited : Invited) :
    conflicts .invitationTokens (server.store .invitationTokens)
        (invitationRow env twin.call invited) =
      conflicts .invitationTokens (other.store .invitationTokens)
        (invitationRow env twin.other invited) := by
  have hids := congrArg (List.map InvitationToken.id) (rows_of_blank alike)
  rw [ids_blank, ids_blank] at hids
  rw [conflicts_ids, conflicts_ids, hids]
  rfl

theorem responseBody_inj {displayName token privateKey otherKey : String}
    {key : PublicKey} {url : String}
    (h : responseBody displayName [key, ⟨url, privateKey⟩] token =
      responseBody displayName [key, ⟨url, otherKey⟩] token) :
    otherKey = privateKey := by
  simp only [responseBody, List.map_cons, List.map_nil, PublicKey.toJson,
    JsValue.obj.injEq, List.cons.injEq, Prod.mk.injEq, JsValue.arr.injEq,
    JsValue.str.injEq, true_and, and_true] at h
  exact h.symm

theorem answer_eq_iff {call : Arrival} {invited : Invited}
    {publicKey privateKey otherKey : String} :
    answer conf call invited publicKey privateKey =
        answer conf call invited publicKey otherKey ↔
      ((message conf invited.medium invited.content invited.address).isSome &&
        (redacted invited.medium invited.address).isSome) = true →
          otherKey = privateKey := by
  unfold answer
  cases message conf invited.medium invited.content invited.address with
  | none => simp
  | some sent =>
      cases redacted invited.medium invited.address with
      | none => simp
      | some displayName =>
          constructor
          · intro h _
            have hreplies := congrArg Output.replies h
            exact responseBody_inj
              (Prod.mk.inj (List.cons.inj hreplies).1).2
          · intro h
            rw [h rfl]

/-- One call: what the two runs give out is the same unless the call hands out
its key. -/
theorem output_twin (alike : server.blank = other.blank) :
    (StoreInvit env conf twin.call server).2 =
        (StoreInvit env conf twin.other other).2 ↔
      (handsOut env conf twin.call server.store = true →
        twin.otherKey = twin.call.drawn.privateKey) := by
  have hinvited : invited env conf twin.other other.store =
      invited env conf twin.call server.store :=
    (invited_congr (store_of_blank alike)).symm
  have hpublic : givenPublic twin.other other.keys.longTerm =
      givenPublic twin.call server.keys.longTerm := by
    rw [← givenPublic_blank twin.call, keys_of_blank alike, givenPublic_blank]
    unfold givenPublic
    cases rotated other.keys.longTerm with
    | nil => rfl
    | cons row rest => rfl
  rw [output_StoreInvit, output_StoreInvit, hinvited, hpublic]
  unfold handsOut
  cases invited env conf twin.call server.store with
  | error replies => simp
  | ok invited =>
      dsimp only
      rw [← conflicts_twin alike]
      cases conflicts .invitationTokens (server.store .invitationTokens)
          (invitationRow env twin.call invited) with
      | true => simp
      | false =>
          simp only [Bool.false_eq_true, if_false, Bool.not_false,
            Bool.true_and]
          exact answer_eq_iff

theorem blank_ext
    (tables : ∀ table, table ≠ .invitationTokens →
      server.store table = other.store table)
    (rows : (server.store .invitationTokens).map blankToken =
      (other.store .invitationTokens).map blankToken)
    (keys : server.keys.longTerm.map blankKey =
      other.keys.longTerm.map blankKey) :
    server.blank = other.blank := by
  unfold Server.blank
  rw [rows, keys]
  congr 1
  funext table
  by_cases htable : table = .invitationTokens
  · subst htable
    rw [Function.update_self, Function.update_self]
  · rw [Function.update_of_ne htable, Function.update_of_ne htable]
    exact tables table htable

theorem blank_twin (alike : server.blank = other.blank) :
    (StoreInvit env conf twin.call server).1.blank =
      (StoreInvit env conf twin.other other).1.blank := by
  have hinvited : invited env conf twin.other other.store =
      invited env conf twin.call server.store :=
    (invited_congr (store_of_blank alike)).symm
  have hkeys : (rotated server.keys.longTerm ++
        [current twin.call.keyPair]).map blankKey =
      (rotated other.keys.longTerm ++
        [current twin.other.keyPair]).map blankKey := by
    rw [List.map_append, List.map_append, ← rotated_blankKey,
      ← rotated_blankKey, keys_of_blank alike]
    rfl
  have htables := store_of_blank alike
  have hrows := rows_of_blank alike
  unfold StoreInvit
  rw [hinvited]
  cases invited env conf twin.call server.store with
  | error replies => exact alike
  | ok invited =>
      dsimp only
      rw [createInvitation_eq, createInvitation_eq]
      dsimp only
      rw [← conflicts_twin alike]
      split
      · exact blank_ext htables hrows hkeys
      · refine blank_ext (fun table htable => ?_) ?_ hkeys
        · dsimp only
          rw [Function.update_of_ne htable, Function.update_of_ne htable]
          exact htables table htable
        · dsimp only
          rw [Function.update_self, Function.update_self, List.map_append,
            List.map_append, hrows]
          rfl

end Twins

/-- What is given out does not depend on the private keys just as long as each
call that hands out its key has drawn the same one in both runs. -/
theorem keepsSecret_iff {env : Environment} {conf : Setup}
    {twins : List TwinCall} {start other : Server}
    (alike : start.blank = other.blank) :
    KeepsSecret env conf twins start other ↔
      ∀ before twin after, twins = before ++ twin :: after →
        handsOut env conf twin.call
          (serveAll env conf (before.map TwinCall.call) start).store = true →
        twin.otherKey = twin.call.drawn.privateKey := by
  induction twins generalizing start other with
  | nil =>
      refine iff_of_true rfl fun before twin after h => ?_
      cases before <;> cases h
  | cons twin rest ih =>
      rw [forall_splits_cons]
      unfold KeepsSecret
      rw [List.map_cons, List.map_cons, outputs, outputs, List.cons.injEq]
      exact and_congr (output_twin alike) (ih (blank_twin alike))

def leakedKey : TwinCall where
  call := invitationCall "alice@example.org" "1"
  otherKey := "another"

def refusedKey : TwinCall where
  call := invitationCall "alice" "1"
  otherKey := "another"

/-- A server that signs with another private key. -/
def otherServer : Server :=
  { sampleServer [] with
    keys := { signingTables with
      longTerm := [current { signingPair with privateKey := "another" }] } }

/-- The same private key is drawn in both runs. -/
def sharedKey : TwinCall where
  call := invitationCall "carol@example.org" "2"
  otherKey := "private-2"

theorem keepsSecret_shared :
    KeepsSecret (.offline id) sampleSetup [refusedKey, sharedKey]
      (sampleServer []) otherServer := by
  refine (keepsSecret_iff rfl).mpr fun before twin after h hhands => ?_
  cases before with
  | nil =>
      obtain ⟨rfl, _⟩ := List.cons.inj h
      have hrefused : handsOut (.offline id) sampleSetup refusedKey.call
          (sampleServer []).store = false := by decide
      exact absurd (hrefused.symm.trans hhands) Bool.false_ne_true
  | cons head before =>
      have hlater := (List.cons.inj h).2
      cases before with
      | nil =>
          obtain ⟨rfl, _⟩ := List.cons.inj hlater
          rfl
      | cons second before =>
          have hnone := (List.cons.inj hlater).2
          cases before <;> cases hnone

/-- The answer to an invitation of alice holds the private key. -/
theorem private_key_answered :
    ¬ KeepsSecret (.offline id) sampleSetup [leakedKey] (sampleServer [])
      (sampleServer []) := by
  intro secret
  have hhands : handsOut (.offline id) sampleSetup leakedKey.call
      (sampleServer []).store = true := by decide
  have hsame := (output_twin rfl).mp (List.cons.inj secret).1 hhands
  exact absurd hsame (by decide)

end TwakeKickstart.IdentityServer.Invitation.Handler
