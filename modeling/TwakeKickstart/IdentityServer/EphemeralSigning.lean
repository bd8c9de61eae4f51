import TwakeKickstart.Crypto.SignJson
import TwakeKickstart.IdentityServer.Invitation.Handler
import TwakeKickstart.IdentityServer.ThreePid.Bind

namespace TwakeKickstart.IdentityServer.EphemeralSigning

open Library Utils Crypto
open Invitation.Handler

/-! `POST /sign-ed25519`: an invitation is signed for the user who accepts
it. -/

def tokenRe : Regex := .run isSecretChar 1 (some 255)

def schema : List (String × Bool) :=
  [("private_key", true), ("mxid", true), ("token", true)]

/-- A request with what is drawn for it: a token and the eight bytes of a key
identifier. -/
structure Signing where
  req : Request
  newToken : String
  identifier : List UInt8

def Signing.keyId (signing : Signing) : String :=
  "ed25519:" ++
    String.ofList (toBase64Url (Base64.encode signing.identifier))

def notFound : Nat × JsValue := (404, errMsg .notFound errorObject)

/-- `verifyInvitationToken`; `none` when it is rejected. -/
def verifyInvitationToken (env : Environment) (token : JsValue)
    (store : Store) : Option JsValue :=
  match (execute env.driver
      (.get .invitationTokens ["data", "address"] [("id", token)]) store).1 with
  | none => none
  | some [] => none
  | some (row :: _) => row.data

/-- The object that is signed; `none` when something throws. -/
def signed (nacl : Nacl) (serverName : String) (signing : Signing)
    (mxid privateKey data : JsValue) : Option JsObject :=
  (data.property "sender").bind fun sender =>
    signJson nacl
      [("mxid", mxid), ("sender", sender), ("token", .str signing.newToken)]
      privateKey serverName signing.keyId

/-- What is answered; nothing when a check throws. -/
def SignEd25519 (env : Environment) (nacl : Nacl) (serverName : String)
    (signing : Signing) (store : Store) : List (Nat × JsValue) :=
  match received schema store signing.req with
  | .error replies => replies
  | .ok content =>
      let mxid := field content "mxid"
      let token := field content "token"
      match testValue tokenRe token with
      | none => []
      | some false => [(400, errMsg .invalidParam (.str "invalid token"))]
      | some true =>
          match testValue mxidRe mxid with
          | none => []
          | some false =>
              [(400, errMsg .invalidParam (.str "invalid Matrix user ID"))]
          | some true =>
              match (verifyInvitationToken env token store).bind
                  (signed nacl serverName signing mxid
                    (field content "private_key")) with
              | none => [notFound]
              | some object => [(200, .obj object)]

/-- A request whose parameters are accepted, with a key of 64 bytes. -/
structure Accepted (store : Store) (signing : Signing) (content : JsValue)
    (token : String) (secretKey : List UInt8) : Prop where
  received : received schema store signing.req = .ok content
  given : field content "token" = .str token
  named : tokenRe.test token = true
  mxid : testValue mxidRe (field content "mxid") = some true
  read : secretOf (field content "private_key") = some secretKey
  sized : secretKey.length = 64

/-- The rows behind the tokens that the calls have handed out. -/
def handedOut (env : Environment) (conf : Setup) :
    List Arrival → Server → List InvitationToken
  | [], _ => []
  | call :: calls, server =>
      (if handsOut env conf call server.store then
        (madeInvitation env conf call server.store).toList
      else []) ++ handedOut env conf calls (StoreInvit env conf call server).1

/-- The object holds just the Matrix ID, the token and the sender, and a
signature of them. -/
structure SignedFor (nacl : Nacl) (serverName : String)
    (publicKey : List UInt8) (mxid : JsValue) (token : String)
    (sender : JsValue) (object : JsObject) : Prop where
  only : ∀ entry ∈ object,
    entry.1 ∈ ["mxid", "sender", "token", "signatures"]
  mxid : field (.obj object) "mxid" = mxid
  token : field (.obj object) "token" = .str token
  sender : field (.obj object) "sender" = sender
  verifies : Verifies nacl object serverName publicKey

/-- A token that was handed out is signed for its sender, and any other is not
found. -/
structure SignsInvitations (env : Environment) (conf : Setup) (nacl : Nacl)
    (calls : List Arrival) (start : Server) (signing : Signing)
    (mxid : JsValue) (token : String) (publicKey : List UInt8) : Prop where
  signs : ∀ row ∈ handedOut env conf calls start, row.id = token →
    ∀ data ∈ row.data, ∃ object,
      SignEd25519 env nacl conf.serverName signing
        (serveAll env conf calls start).store = [(200, .obj object)] ∧
      SignedFor nacl conf.serverName publicKey mxid token
        (field data "sender") object
  refuses : (∀ row ∈ handedOut env conf calls start, row.id ≠ token) →
    ∃ body, SignEd25519 env nacl conf.serverName signing
      (serveAll env conf calls start).store = [(404, body)]

section Handing

variable {env : Environment} {conf : Setup} {calls : List Arrival}
variable {start : Server}

theorem handedOut_subset : ∀ row ∈ handedOut env conf calls start,
    row ∈ madeInvitations env conf calls start := by
  induction calls generalizing start with
  | nil => exact nofun
  | cons call rest ih =>
      intro row hrow
      refine List.mem_append.mpr ?_
      rcases List.mem_append.mp hrow with hhere | hlater
      · split at hhere
        · exact .inl hhere
        · cases hhere
      · exact .inr (ih row hlater)

theorem verifyInvitationToken_eq {token : String} (named : token ≠ "")
    (store : Store) :
    verifyInvitationToken env (.str token) store =
      ((store .invitationTokens).find? (·.id == token)).bind
        (·.data) := by
  have hrows := execute_get env.driver .invitationTokens ["data", "address"]
    [("id", .str token)] store
  rw [resolve_cons_str, if_neg named, resolve_nil] at hrows
  have hfilter : ((store .invitationTokens).filter fun row =>
      selectsAll .eq [("id", [token])] (cell .invitationTokens row)) =
      (store .invitationTokens).filter (·.id == token) := by
    refine List.filter_congr fun row _ => ?_
    rw [Bool.eq_iff_iff]
    simp [selectsAll, cell]
  unfold verifyInvitationToken
  rw [hrows, ← List.head?_filter]
  dsimp only [Option.map_some]
  rw [hfilter]
  cases (store .invitationTokens).filter (·.id == token) with
  | nil => rfl
  | cons row rest => rfl

end Handing

section Answers

variable {env : Environment} {nacl : Nacl} {serverName : String}
variable {signing : Signing} {store : Store} {content : JsValue}
variable {token : String} {secretKey : List UInt8}

theorem signEd25519_eq
    (accepted : Accepted store signing content token secretKey) :
    SignEd25519 env nacl serverName signing store =
      match (((store .invitationTokens).find? (·.id == token)).bind
          (·.data)).bind (signed nacl serverName signing
            (field content "mxid") (field content "private_key")) with
      | none => [notFound]
      | some object => [(200, .obj object)] := by
  have hnamed : token ≠ "" := by
    rintro rfl
    exact absurd accepted.named (by decide)
  unfold SignEd25519
  rw [accepted.received]
  dsimp only
  rw [accepted.given, testValue_str, accepted.named]
  dsimp only
  rw [accepted.mxid]
  dsimp only
  rw [verifyInvitationToken_eq hnamed]

theorem signEd25519_unknown
    (accepted : Accepted store signing content token secretKey)
    (unknown : ∀ row ∈ store .invitationTokens, row.id ≠ token) :
    SignEd25519 env nacl serverName signing store = [notFound] := by
  have hnone : (store .invitationTokens).find? (·.id == token) = none := by
    refine List.find?_eq_none.mpr fun row hrow => ?_
    rw [beq_iff_eq]
    exact unknown row hrow
  rw [signEd25519_eq accepted, hnone]
  rfl

theorem signEd25519_known
    (accepted : Accepted store signing content token secretKey)
    (objects : ∀ row ∈ store .invitationTokens,
      ∃ fields, row.data = some (.obj fields))
    (known : ∃ row ∈ store .invitationTokens, row.id = token) :
    ∃ object, SignEd25519 env nacl serverName signing store =
        [(200, .obj object)] ∧
      ∀ publicKey, ¬ Verifies nacl object serverName publicKey := by
  obtain ⟨row, hrow, hid⟩ := known
  have hfind : ((store .invitationTokens).find? (·.id == token)).isSome =
      true := by
    rw [List.find?_isSome]
    exact ⟨row, hrow, beq_iff_eq.mpr hid⟩
  obtain ⟨found, hfound⟩ := Option.isSome_iff_exists.mp hfind
  obtain ⟨fields, hdata⟩ := objects found (List.mem_of_find?_eq_some hfound)
  obtain ⟨object, hobject⟩ := Option.isSome_iff_exists.mp
    (@signJson_isSome nacl
      [("mxid", field content "mxid"), ("sender", field (.obj fields) "sender"),
        ("token", .str signing.newToken)] _ _ accepted.read accepted.sized rfl
      serverName signing.keyId)
  refine ⟨object, ?_, not_verifies_signJson rfl hobject⟩
  have hsigned : signed nacl serverName signing (field content "mxid")
      (field content "private_key") (.obj fields) = some object := hobject
  rw [signEd25519_eq accepted, hfound, Option.bind_some, hdata,
    Option.bind_some, hsigned]

end Answers

/-- Invitations are signed as they should be just as long as the token asked
for has no row, and then it is not found. -/
theorem signsInvitations_iff {env : Environment} {conf : Setup} {nacl : Nacl}
    {calls : List Arrival} {start : Server} {signing : Signing}
    {content : JsValue} {token : String} {secretKey : List UInt8}
    (empty : start.store .invitationTokens = [])
    (accepted : Accepted (serveAll env conf calls start).store signing content
      token secretKey) :
    SignsInvitations env conf nacl calls start signing (field content "mxid")
        token (nacl.publicKey secretKey) ↔
      ∀ row ∈ madeInvitations env conf calls start, row.id ≠ token := by
  have hrows : (serveAll env conf calls start).store .invitationTokens =
      madeInvitations env conf calls start := by
    rw [invitationTokens_serveAll, empty, List.nil_append]
  have hobjects := madeInvitations_obj env conf calls start
  constructor
  · intro signs row hrow hid
    obtain ⟨object, hanswer, hunverified⟩ :=
      @signEd25519_known env nacl conf.serverName _ _ _ _ _ accepted
        (by rw [hrows]; exact hobjects) ⟨row, by rw [hrows]; exact hrow, hid⟩
    by_cases hhanded : ∃ row ∈ handedOut env conf calls start, row.id = token
    · obtain ⟨handed, hmem, hsame⟩ := hhanded
      obtain ⟨fields, hdata⟩ := hobjects handed (handedOut_subset handed hmem)
      obtain ⟨other, hother, hsigned⟩ :=
        signs.signs handed hmem hsame _ hdata
      rw [hanswer, List.cons.injEq, Prod.mk.injEq, JsValue.obj.injEq] at hother
      obtain ⟨⟨_, rfl⟩, _⟩ := hother
      exact hunverified _ hsigned.verifies
    · obtain ⟨body, hbody⟩ := signs.refuses fun other hother hsame =>
        hhanded ⟨other, hother, hsame⟩
      rw [hanswer, List.cons.injEq, Prod.mk.injEq] at hbody
      exact absurd hbody.1.1 (by decide)
  · intro unknown
    have hanswer := @signEd25519_unknown env nacl conf.serverName _ _ _ _ _
      accepted (by rw [hrows]; exact unknown)
    constructor
    · intro row hrow hid
      exact absurd hid (unknown row (handedOut_subset row hrow))
    · intro _
      exact ⟨_, hanswer⟩

/-! A key pair with the signature that it makes of one message. -/

def samplePublic : List UInt8 :=
  [3, 161, 7, 191, 243, 206, 16, 190, 29, 112, 221, 24, 231, 75, 192, 153, 103,
    228, 214, 48, 155, 165, 13, 95, 29, 220, 134, 100, 18, 85, 49, 184]

def sampleSecret : List UInt8 :=
  (List.range 32).map UInt8.ofNat ++ samplePublic

def sampleSignature : List UInt8 :=
  [134, 156, 242, 180, 112, 187, 247, 56, 108, 253, 188, 5, 62, 98, 139, 3, 224,
    65, 160, 124, 240, 244, 184, 2, 168, 239, 28, 154, 255, 231, 73, 238, 113,
    181, 203, 56, 211, 192, 1, 215, 210, 62, 121, 186, 85, 208, 244, 115, 176,
    22, 126, 20, 62, 3, 35, 215, 76, 254, 7, 128, 22, 145, 247, 10]

def acceptance : JsObject :=
  [("mxid", .str "@alice:example.org"), ("sender", .str "@bob:example.org"),
    ("token", .str "n3w")]

def sampleNacl : Nacl where
  publicKey := fun secretKey => secretKey.drop 32
  sign := fun message secretKey =>
    if secretKey.length = 64 then some (sampleSignature ++ message) else none
  verify := fun message signature publicKey =>
    decide (signature = sampleSignature) && decide (publicKey = samplePublic) &&
      decide (message = utf8 (canonicalJson (.obj acceptance)))
  signed := by
    intro message secretKey result h
    split at h
    · exact ⟨sampleSignature, rfl, (Option.some.inj h).symm⟩
    · cases h
  signs := by
    intro message secretKey h
    rw [if_pos h]
    rfl
  verified := by
    intro message signature publicKey h
    rw [Bool.and_eq_true, Bool.and_eq_true, decide_eq_true_eq] at h
    rw [h.1.1]
    rfl

def samplePrivateKey : String :=
  "AAECAwQFBgcICQoLDA0ODxAREhMUFRYXGBkaGxwdHh8" ++
    "DoQe_884Qvh1w3RjnS8CZZ-TWMJulDV8d3IZkElUxuA"

def signingContent (token : String) : JsValue :=
  .obj [("mxid", .str "@alice:example.org"), ("token", .str token),
    ("private_key", .str samplePrivateKey)]

def signingOf (token : String) : Signing where
  req := {
    authorization := some "Bearer b0b"
    body := some (signingContent token) }
  newToken := "n3w"
  identifier := [0, 1, 2, 3, 4, 5, 6, 7]

theorem accepted_signingOf {token : String}
    (named : tokenRe.test token = true) :
    Accepted (serveAll (.offline id) sampleSetup aliceInvited
      (sampleServer [])).store (signingOf token) (signingContent token) token
        sampleSecret := by
  have htokens : ∀ table, table ≠ .invitationTokens →
      (serveAll (.offline id) sampleSetup aliceInvited
        (sampleServer [])).store table = (sampleServer []).store table :=
    fun table => store_serveAll (.offline id) sampleSetup aliceInvited _
  refine ⟨?_, rfl, named, ?_, ?_, rfl⟩
  · rw [received_congr (htokens .accessTokens (by decide))
      (htokens .userPolicies (by decide))]
    rfl
  · change testValue mxidRe (.str "@alice:example.org") = some true
    decide
  · change secretOf (.str samplePrivateKey) = some sampleSecret
    exact (secretOf_append rfl rfl).trans (by decide +kernel)

theorem unknown_token_refused :
    SignsInvitations (.offline id) sampleSetup sampleNacl aliceInvited
      (sampleServer []) (signingOf "unknown") (.str "@alice:example.org")
      "unknown" samplePublic := by
  have accepted :=
    accepted_signingOf (by decide : tokenRe.test "unknown" = true)
  refine (signsInvitations_iff rfl accepted).mpr fun row hrow hid => ?_
  have hids : (madeInvitations (.offline id) sampleSetup aliceInvited
      (sampleServer [])).map InvitationToken.id = ["token-1"] := by
    decide
  have hmem := @List.mem_map_of_mem _ _ _ _ InvitationToken.id hrow
  rw [hids, List.mem_singleton, hid] at hmem
  exact absurd hmem (by decide)

/-- What is signed for alice does not verify. -/
theorem alice_not_signed :
    ¬ SignsInvitations (.offline id) sampleSetup sampleNacl aliceInvited
      (sampleServer []) (signingOf "token-1") (.str "@alice:example.org")
      "token-1" samplePublic := by
  intro signs
  have accepted :=
    accepted_signingOf (by decide : tokenRe.test "token-1" = true)
  have hids : (handedOut (.offline id) sampleSetup aliceInvited
      (sampleServer [])).map InvitationToken.id = ["token-1"] := by
    decide
  have hmem : "token-1" ∈ (handedOut (.offline id) sampleSetup aliceInvited
      (sampleServer [])).map InvitationToken.id := by
    rw [hids]
    exact List.mem_singleton_self _
  obtain ⟨row, hrow, hid⟩ := List.mem_map.mp hmem
  have hmade := handedOut_subset row hrow
  have hstored : (serveAll (.offline id) sampleSetup aliceInvited
      (sampleServer [])).store .invitationTokens =
      madeInvitations (.offline id) sampleSetup aliceInvited
        (sampleServer []) :=
    invitationTokens_serveAll _ _ _ _
  obtain ⟨fields, hdata⟩ := madeInvitations_obj _ _ _ _ row hmade
  obtain ⟨object, hanswer, hsigned⟩ := signs.signs row hrow hid _ hdata
  obtain ⟨other, hother, hunverified⟩ :=
    @signEd25519_known _ sampleNacl sampleSetup.serverName _ _ _ _ _ accepted
      (by rw [hstored]; exact madeInvitations_obj _ _ _ _)
      ⟨row, by rw [hstored]; exact hmade, hid⟩
  rw [hanswer, List.cons.injEq, Prod.mk.injEq, JsValue.obj.injEq] at hother
  obtain ⟨⟨_, rfl⟩, _⟩ := hother
  exact hunverified _ hsigned.verifies

end TwakeKickstart.IdentityServer.EphemeralSigning
