import TwakeKickstart.IdentityServer.Lookup
import TwakeKickstart.IdentityServer.Invitation.SigningKey

namespace TwakeKickstart.IdentityServer.Invitation.Handler

open Library Utils

/-! `POST /store-invite` from the request to what is given out, with the call
of the lookup endpoint in it. -/

def schema : List (String × Bool) :=
  [("address", false), ("phone", false), ("medium", true),
    ("room_alias", false), ("room_avatar_url", false), ("room_id", true),
    ("room_join_rules", false), ("room_name", false), ("room_type", false),
    ("sender", true), ("sender_avatar_url", false),
    ("sender_display_name", false), ("invitation_link", false)]

/-- `smsReady`: the SMS service has a URL, and its template can be read. -/
structure Setup extends Conf where
  lookup : Config
  invitationServerName : Option String := none
  chatUrl : Option String := none
  smsReady : Bool := true

/-- A call with what is drawn for it.  `served`: the request that it makes
itself reaches the lookup endpoint. -/
structure Arrival where
  req : Request
  now : Nat
  served : Bool
  drawn : Drawn
  token : String

def Arrival.keyPair (call : Arrival) : KeyPair :=
  generateKeyPair .curve25519 call.drawn

/-- The tables of the keys beside the other ones. -/
structure Server where
  store : Store
  keys : KeyTables

/-- The arguments of `mailBody`, or of `buildSmsBody`: what the text that is
sent depends on beside the template, the date and a drawn message ID. -/
inductive Message where
  | mail (dst inviterName roomName roomAvatar roomType link : String)
  | sms (phoneNumber inviter link : String)
  deriving DecidableEq

structure Output where
  replies : List (Nat × JsValue)
  messages : List Message

def unknownFailure : Nat × JsValue := (500, errMsg .unknown errorObject)

/-! The address. -/

-- `regex.test` throws on a value that has no text: nobody answers then.
def checkEmail (address : JsValue) :
    Except (List (Nat × JsValue)) JsValue :=
  let refused : List (Nat × JsValue) :=
    [(400, errMsg .invalidParam (.str "Invalid email address."))]
  if address.isNullish then .error refused
  else
    match testValue validEmailRe address with
    | none => .error []
    | some false => .error refused
    | some true => .ok address

-- `isMobilePhone` throws on a value that is no string.
def checkPhone (conf : Conf) (phone : JsValue) :
    Except (List (Nat × JsValue)) JsValue :=
  let refused : List (Nat × JsValue) :=
    [(400, errMsg .invalidParam (.str "Invalid phone number."))]
  if phone.isNullish then .error refused
  else
    match phone with
    | .str number => if conf.isMobilePhone number then .ok phone
        else .error refused
    | _ => .error []

/-- The medium and the address that is invited. -/
def checkedAddress (conf : Conf) (content : JsValue) :
    Except (List (Nat × JsValue)) (String × JsValue) :=
  let unsupported : List (Nat × JsValue) :=
    [(400, errMsg .unrecognized (.str "This medium is not supported."))]
  match field content "medium" with
  | .str medium =>
      if !validMediums.contains medium then .error unsupported
      else if medium = "email" then
        (checkEmail (field content "address")).map fun address =>
          (medium, address)
      else
        (checkPhone conf (field content "phone")).map fun phone =>
          (medium, phone)
  | _ => .error unsupported

/-! The lookup. -/

/-- `authHeader.split(' ')[1]` in a template literal. -/
def validToken (header : String) : String :=
  ((header.toList.splitOn ' ')[1]?).elim "undefined" String.ofList

def addressRequest (token pepper : String) (address : JsValue) : Request where
  authorization := some ("Bearer " ++ token)
  body := some (.obj [("addresses", .arr [address]),
    ("algorithm", .str "sha256"), ("pepper", .str pepper)])

/-- The response to the request that the handler makes; `none` when the call
throws. -/
def lookupResponse (env : Environment) (conf : Setup) (call : Arrival)
    (token pepper : String) (address : JsValue) (store : Store) :
    Option (Nat × JsValue) :=
  if call.served then
    (serve env call.now
      (lookup conf.lookup (addressRequest token pepper address))
      { store }).sent.head?
  else none

-- `Object.keys(value).length > 0`
def hasKeys : JsValue → Bool
  | .obj fields => !fields.isEmpty
  | .arr items => !items.isEmpty
  | .str s => s != ""
  | _ => false

def foundMappings (result : JsValue) : Bool :=
  (result.property "mappings").any fun mappings =>
    mappings.truthy && hasKeys mappings

def inUse (sender : JsValue) : Nat × JsValue :=
  (400, .obj [("errcode", .str "M_THREEPID_IN_USE"),
    ("error", .str
      "The third party identifier is already in use by another user."),
    ("mxid", sender)])

def unexpectedStatus : Nat × JsValue :=
  (500, errMsg .unknown (.str ("Unexpected response statusCode from the " ++
    "/_matrix/identity/v2/lookup API")))

/-- How a call is answered because of the lookup; `none` when it goes on. -/
def lookupRefusal (env : Environment) (conf : Setup) (call : Arrival)
    (content address : JsValue) (store : Store) : Option (Nat × JsValue) :=
  match call.req.authorization with
  | none => some unknownFailure
  | some header =>
      match (execute env.driver
          (.get .keys ["data"] [("name", .str "pepper")]) store).1 with
      | none => some unknownFailure
      | some [] => some (500, errMsg .unknown (.str "No pepper found"))
      | some (key :: _) =>
          match lookupResponse env conf call (validToken header) key.data
              address store with
          | none => some unknownFailure
          | some (status, result) =>
              if status = 200 then
                if foundMappings result then
                  some (inUse (field content "sender"))
                else none
              else some unexpectedStatus

/-! What is sent. -/

/-- `value ?? otherwise`, as text; `none` when the conversion throws. -/
def textOr (otherwise : String) (value : JsValue) : Option String :=
  if value.isNullish then some otherwise else value.text?

def inviteLink (server : String) (sender roomAlias : JsValue) :
    Option String :=
  (if roomAlias.isNullish then sender.text? else roomAlias.text?).map
    fun target => "https://" ++ server ++ "/#/" ++ target

def mailMessage (conf : Setup) (content address : JsValue) : Option Message :=
  address.text?.bind fun dst =>
  (textOr "*****" (field content "sender_display_name")).bind fun inviter =>
  (textOr "*****" (field content "room_name")).bind fun roomName =>
  (textOr "*****" (field content "room_avatar_url")).bind fun roomAvatar =>
  (textOr "*****" (field content "room_type")).bind fun roomType =>
  (inviteLink (conf.invitationServerName.getD "matrix.to")
      (field content "sender") (field content "room_alias")).map fun link =>
    .mail dst inviter roomName roomAvatar roomType link

def smsMessage (conf : Setup) (content address : JsValue) : Option Message :=
  if conf.smsReady then
    address.text?.bind fun phoneNumber =>
    (field content "sender").text?.bind fun inviter =>
    (textOr (conf.chatUrl.getD "https://chat.twake.app")
        (field content "invitation_link")).map fun link =>
      .sms phoneNumber inviter link
  else none

def message (conf : Setup) (medium : String) (content address : JsValue) :
    Option Message :=
  if medium = "email" then mailMessage conf content address
  else smsMessage conf content address

/-- `redactAddress`, which throws on a value that is no string. -/
def redacted (medium : String) : JsValue → Option String
  | .str address => some (redactAddress medium address)
  | _ => none

def PublicKey.toJson (key : PublicKey) : JsValue :=
  .obj [("key_validity_url", .str key.keyValidityUrl),
    ("public_key", .str key.publicKey)]

def responseBody (displayName : String) (publicKeys : List PublicKey)
    (token : String) : JsValue :=
  .obj [("display_name", .str displayName),
    ("public_keys", .arr (publicKeys.map PublicKey.toJson)),
    ("token", .str token)]

/-! What is stored. -/

def KeyPair.toJson (keyPair : KeyPair) : JsValue :=
  .obj [("publicKey", .str keyPair.publicKey),
    ("privateKey", .str keyPair.privateKey), ("keyId", .str keyPair.keyId)]

/-- The invitation with the key pair made for it.  Content that is no object
has no parameters and never gets here. -/
def objWithKey (content : JsValue) (key : KeyPair) : JsValue :=
  match content with
  | .obj fields => .obj (JsObject.put fields "key" (KeyPair.toJson key))
  | _ => .obj [("key", KeyPair.toJson key)]

/-- `none` when the token is taken. -/
def createInvitationToken (env : Environment) (address data : JsValue)
    (token : String) (store : Store) : Option Store :=
  match execute env.driver (.insert .invitationTokens
      ⟨token, env.driver.text address, some data⟩) store with
  | (none, _) => none
  | (some _, store) => some store

/-! The handler. -/

structure Invited where
  content : JsValue
  medium : String
  address : JsValue

/-- The invitation that a call comes to make, or how it is answered before. -/
def invited (env : Environment) (conf : Setup) (call : Arrival)
    (store : Store) : Except (List (Nat × JsValue)) Invited :=
  match received schema store call.req with
  | .error replies => .error replies
  | .ok content =>
      match checkedAddress conf.toConf content with
      | .error replies => .error replies
      | .ok (medium, address) =>
          match lookupRefusal env conf call content address store with
          | some refusal => .error [refusal]
          | none => .ok ⟨content, medium, address⟩

/-- The message is sent, and then the answer. -/
def conclude (conf : Setup) (call : Arrival) (invited : Invited)
    (ephemeralKey : KeyPair) (keys : KeyTables) : Output :=
  match message conf invited.medium invited.content invited.address with
  | none => ⟨[unknownFailure], []⟩
  | some sent =>
      match redacted invited.medium invited.address with
      | none => ⟨[unknownFailure], [sent]⟩
      | some displayName =>
          match getKeys keys with
          | none => ⟨[unknownFailure], [sent]⟩
          | some current =>
              ⟨[(200, responseBody displayName
                [⟨pubkeyUrl conf.toConf, current.publicKey⟩,
                  ⟨ephemeralPubkeyUrl conf.toConf, ephemeralKey.privateKey⟩]
                call.token)], [sent]⟩

def createInvitation (env : Environment) (conf : Setup) (call : Arrival)
    (invited : Invited) (server : Server) : Server × Output :=
  match createKeypair .longTerm .curve25519 call.drawn server.keys with
  | (keys, none) => ({ server with keys }, ⟨[], []⟩)
  | (keys, some ephemeralKey) =>
      match createInvitationToken env invited.address
          (objWithKey invited.content ephemeralKey) call.token
          server.store with
      | none => ({ server with keys }, ⟨[unknownFailure], []⟩)
      | some store =>
          (⟨store, keys⟩, conclude conf call invited ephemeralKey keys)

def StoreInvit (env : Environment) (conf : Setup) (call : Arrival)
    (server : Server) : Server × Output :=
  match invited env conf call server.store with
  | .error replies => (server, ⟨replies, []⟩)
  | .ok invited => createInvitation env conf call invited server

/-- The calls, one after another. -/
def serveAll (env : Environment) (conf : Setup) (calls : List Arrival)
    (server : Server) : Server :=
  calls.foldl (fun server call => (StoreInvit env conf call server).1) server

/-! The addresses that are accepted. -/

theorem checkEmail_ok {value address : JsValue}
    (h : checkEmail value = .ok address) :
    value = address ∧ testValue validEmailRe address = some true := by
  unfold checkEmail at h
  dsimp only at h
  split at h
  · cases h
  · split at h
    · cases h
    · cases h
    · rename_i haccepted
      cases h
      exact ⟨rfl, haccepted⟩

theorem checkPhone_ok {conf : Conf} {value address : JsValue}
    (h : checkPhone conf value = .ok address) :
    ∃ number, value = .str number ∧ address = .str number ∧
      conf.isMobilePhone number = true := by
  unfold checkPhone at h
  dsimp only at h
  split at h
  · cases h
  · split at h
    · split at h
      · rename_i number _ haccepted
        cases h
        exact ⟨number, rfl, rfl, haccepted⟩
      · cases h
    · cases h

theorem checkedAddress_ok {conf : Conf} {content address : JsValue}
    {medium : String} (h : checkedAddress conf content = .ok (medium, address)) :
    field content "medium" = .str medium ∧
    ((medium = "email" ∧ field content "address" = address ∧
      testValue validEmailRe address = some true) ∨
    (medium = "msisdn" ∧ field content "phone" = address ∧
      ∃ number, address = .str number ∧
        conf.isMobilePhone number = true)) := by
  unfold checkedAddress at h
  dsimp only at h
  split at h
  · rename_i name hmedium
    split at h
    · cases h
    · rename_i hvalid
      split at h
      · rename_i hemail
        cases hchecked : checkEmail (field content "address") with
        | error replies =>
            rw [hchecked] at h
            cases h
        | ok value =>
            rw [hchecked] at h
            cases h
            exact ⟨hmedium, .inl ⟨hemail, checkEmail_ok hchecked⟩⟩
      · rename_i hother
        have hname : name = "msisdn" := by
          simpa [validMediums, hother] using hvalid
        cases hchecked : checkPhone conf (field content "phone") with
        | error replies =>
            rw [hchecked] at h
            cases h
        | ok value =>
            rw [hchecked] at h
            cases h
            obtain ⟨number, hphone, rfl, haccepted⟩ := checkPhone_ok hchecked
            exact ⟨hmedium, .inr ⟨hname, hphone, number, rfl, haccepted⟩⟩
  · cases h

theorem checkedAddress_email {conf : Conf} {content : JsValue}
    (h : field content "medium" = .str "email") :
    checkedAddress conf content =
      (checkEmail (field content "address")).map fun address =>
        ("email", address) := by
  unfold checkedAddress
  rw [h]
  dsimp only
  rw [if_neg (by decide), if_pos rfl]

/-! The lookup that a call makes. -/

section Lookup

variable {env : Environment} {conf : Setup} {call : Arrival} {store : Store}

theorem tokenRe_some {header token : String}
    (h : tokenRe header = some token) :
    header = "Bearer " ++ token ∧ token.toList ≠ [] ∧
      token.toList.all (!isSpaceChar ·) = true := by
  unfold tokenRe at h
  dsimp only at h
  split at h
  · rename_i hparts
    obtain ⟨⟨rest, hheader⟩, hsome, hall⟩ := hparts
    have hrest : header.toList.drop 7 = rest := by
      rw [← hheader]
      rfl
    rw [hrest] at h hsome hall
    have htoken : token = String.ofList rest := (Option.some.inj h).symm
    have htext : token.toList = rest := by
      rw [htoken]
      exact String.toList_ofList
    rw [htext]
    refine ⟨String.toList_inj.mp ?_, hsome, hall⟩
    rw [← hheader, String.toList_append, htext]
  · cases h

theorem tokenRe_bearer {token : String} (named : token.toList ≠ [])
    (all : token.toList.all (!isSpaceChar ·) = true) :
    tokenRe ("Bearer " ++ token) = some token := by
  have hdrop : ("Bearer " ++ token).toList.drop 7 = token.toList := by
    rw [String.toList_append]
    rfl
  unfold tokenRe
  dsimp only
  rw [hdrop, if_pos ⟨⟨token.toList, String.toList_append.symm⟩, named, all⟩,
    String.ofList_toList]

theorem validToken_bearer {token : String}
    (all : token.toList.all (!isSpaceChar ·) = true) :
    validToken ("Bearer " ++ token) = token := by
  have hnone : ∀ c ∈ token.toList, (c == ' ') = false := by
    intro c hc
    have hspace := List.all_eq_true.mp all c hc
    rw [beq_eq_false_iff_ne]
    intro hblank
    rw [hblank] at hspace
    exact absurd hspace (by decide)
  have hsplit : ("Bearer " ++ token).toList.splitOn ' ' =
      ["Bearer".toList, token.toList] := by
    have hparts : ("Bearer " ++ token).toList =
        "Bearer".toList ++ ' ' :: token.toList := by
      rw [String.toList_append]
      rfl
    rw [hparts, List.splitOn, List.splitOnP_append_cons _ _ (by decide),
      List.splitOnP_eq_singleton hnone]
    rfl
  rw [validToken, hsplit]
  exact String.ofList_toList

theorem presentedToken_addressRequest {req : Request} {header : String}
    (sent : req.authorization = some header)
    (presented : (presentedToken req).isNullish = false) (pepper : String)
    (address : JsValue) :
    presentedToken (addressRequest (validToken header) pepper address) =
      presentedToken req := by
  unfold presentedToken at presented ⊢
  rw [sent] at presented ⊢
  dsimp only at presented ⊢
  cases htoken : tokenRe header with
  | none =>
      rw [htoken] at presented
      cases presented
  | some token =>
      obtain ⟨rfl, hsome, hall⟩ := tokenRe_some htoken
      rw [validToken_bearer hall]
      change (tokenRe ("Bearer " ++ token)).elim JsValue.null .str = _
      rw [tokenRe_bearer hsome hall]

theorem get_pepper (driver : Driver) (store : Store) :
    (execute driver (.get .keys ["data"] [("name", .str "pepper")]) store).1 =
      some ((store .keys).filter (·.name == "pepper")) := by
  rw [execute_get, resolve_cons_str, if_neg (by decide), resolve_nil]
  dsimp only [Option.map_some]
  congr 1
  refine List.filter_congr fun row _ => ?_
  rw [Bool.eq_iff_iff]
  simp [selectsAll, cell]

theorem pepperRow_eq_head? (store : Store) :
    ((store .keys).filter (·.name == "pepper")).head? =
      (store .keys).find? (·.name == "pepper") :=
  List.head?_filter

theorem acceptedAddresses_single (conf : Config) (address : JsValue) :
    acceptedAddresses conf (.arr [address]) =
      match address with
      | .str text => if 1 ≤ conf.hashesRateLimit then some [text] else none
      | _ => none := by
  cases address with
  | str text =>
      simp only [acceptedAddresses, stringItems, Option.map_some,
        Option.filter_some, List.length_singleton, decide_eq_true_eq]
  | undefined => rfl
  | null => rfl
  | bool b => rfl
  | num n => rfl
  | arr items => rfl
  | obj fields => rfl

theorem lookupResponse_eq {header : String} {data : JsValue}
    (sent : call.req.authorization = some header)
    (authenticated : identify store (presentedToken call.req) true = .ok data)
    (pepper : String) (address : JsValue) :
    lookupResponse env conf call (validToken header) pepper address store =
      if call.served then
        match acceptedAddresses conf.lookup (.arr [address]) with
        | none => some (400, errMsg .invalidParam)
        | some addresses => some (200, lookupBody conf.lookup
            (selectHashes (store .hashes) addresses))
      else none := by
  unfold lookupResponse
  split
  · have hpresented : (presentedToken call.req).isNullish = false := by
      rw [identify] at authenticated
      split at authenticated
      · cases authenticated
      · rename_i hnullish
        exact Bool.eq_false_iff.mpr hnullish
    have hreceived : received lookupSchema store
        (addressRequest (validToken header) pepper address) =
        .ok (.obj [("addresses", .arr [address]),
          ("algorithm", .str "sha256"), ("pepper", .str pepper)]) := by
      refine @received_of_accepted _ _ _ data _ ?_ rfl
      rw [presentedToken_addressRequest sent hpresented]
      exact authenticated
    rw [sent_lookup_received, hreceived]
    change (match acceptedAddresses conf.lookup (.arr [address]) with
      | none => _
      | some addresses => _ : List (Nat × JsValue)).head? = _
    cases acceptedAddresses conf.lookup (.arr [address]) with
    | none => rfl
    | some addresses => rfl
  · rfl

end Lookup

theorem invited_eq {env : Environment} {conf : Setup} {call : Arrival}
    {store : Store} {content address : JsValue} {medium : String}
    (accepted : received schema store call.req = .ok content)
    (checked : checkedAddress conf.toConf content = .ok (medium, address)) :
    invited env conf call store =
      match lookupRefusal env conf call content address store with
      | some refusal => .error [refusal]
      | none => .ok ⟨content, medium, address⟩ := by
  unfold invited
  rw [accepted]
  dsimp only
  rw [checked]

/-! The invitations that calls store. -/

def invitationRow (env : Environment) (call : Arrival) (invited : Invited) :
    InvitationToken where
  id := call.token
  address := env.driver.text invited.address
  data := some (objWithKey invited.content call.keyPair)

/-- The row that a call inserts, unless its token is taken. -/
def madeInvitation (env : Environment) (conf : Setup) (call : Arrival)
    (store : Store) : Option InvitationToken :=
  match invited env conf call store with
  | .error _ => none
  | .ok invited =>
      let row := invitationRow env call invited
      if conflicts .invitationTokens (store .invitationTokens) row then none
      else some row

/-- The rows that the calls insert one after another. -/
def madeInvitations (env : Environment) (conf : Setup) :
    List Arrival → Server → List InvitationToken
  | [], _ => []
  | call :: calls, server =>
      (madeInvitation env conf call server.store).toList ++
        madeInvitations env conf calls (StoreInvit env conf call server).1

/-- The call comes to its end: it makes an invitation, its token is free, and
its message and the address in the answer can be written. -/
def handsOut (env : Environment) (conf : Setup) (call : Arrival)
    (store : Store) : Bool :=
  match invited env conf call store with
  | .error _ => false
  | .ok invited =>
      !conflicts .invitationTokens (store .invitationTokens)
        (invitationRow env call invited) &&
      (message conf invited.medium invited.content invited.address).isSome &&
      (redacted invited.medium invited.address).isSome

section Storing

variable (env : Environment) (conf : Setup) (call : Arrival)

theorem createInvitationToken_eq (address data : JsValue) (token : String)
    (store : Store) :
    createInvitationToken env address data token store =
      if conflicts .invitationTokens (store .invitationTokens)
          ⟨token, env.driver.text address, some data⟩ then none
      else some (Function.update store .invitationTokens
        (store .invitationTokens ++
          [⟨token, env.driver.text address, some data⟩])) := by
  unfold createInvitationToken
  simp only [execute]
  cases conflicts .invitationTokens (store .invitationTokens)
      ⟨token, env.driver.text address, some data⟩ with
  | true => rfl
  | false => rfl

/-- A call that gets as far makes a key pair, and its row is inserted unless
the token is taken. -/
theorem createInvitation_eq (invited : Invited) (server : Server) :
    createInvitation env conf call invited server =
      let keys := { server.keys with
        longTerm := rotated server.keys.longTerm ++ [current call.keyPair] }
      let row := invitationRow env call invited
      if conflicts .invitationTokens (server.store .invitationTokens) row then
        ({ server with keys }, ⟨[unknownFailure], []⟩)
      else
        (⟨Function.update server.store .invitationTokens
          (server.store .invitationTokens ++ [row]), keys⟩,
          conclude conf call invited call.keyPair keys) := by
  have hkeys : createKeypair .longTerm .curve25519 call.drawn server.keys =
      ({ server.keys with
        longTerm := rotated server.keys.longTerm ++ [current call.keyPair] },
        some call.keyPair) :=
    createKeypair_longTerm .curve25519 call.drawn server.keys
  unfold createInvitation
  rw [hkeys]
  dsimp only
  rw [createInvitationToken_eq]
  change (match (if conflicts .invitationTokens
      (server.store .invitationTokens) (invitationRow env call invited) then none
    else some _ : Option Store) with
    | none => _
    | some store => _) = _
  split
  · rename_i hnone
    split at hnone
    · rename_i hconflict
      rw [if_pos hconflict]
    · cases hnone
  · rename_i store hsome
    split at hsome
    · cases hsome
    · rename_i hfree
      cases hsome
      rw [if_neg hfree]
      rfl

theorem store_StoreInvit (server : Server) :
    (StoreInvit env conf call server).1.store =
      Function.update server.store .invitationTokens
        (server.store .invitationTokens ++
          (madeInvitation env conf call server.store).toList) := by
  unfold StoreInvit madeInvitation
  cases invited env conf call server.store with
  | error replies =>
      dsimp only
      rw [Option.toList_none, List.append_nil, Function.update_eq_self]
  | ok invited =>
      dsimp only
      rw [createInvitation_eq]
      dsimp only
      split
      · rw [Option.toList_none, List.append_nil, Function.update_eq_self]
      · rfl

theorem serveAll_cons (calls : List Arrival) (server : Server) :
    serveAll env conf (call :: calls) server =
      serveAll env conf calls (StoreInvit env conf call server).1 := rfl

theorem invitationTokens_serveAll (calls : List Arrival) (server : Server) :
    (serveAll env conf calls server).store .invitationTokens =
      server.store .invitationTokens ++
        madeInvitations env conf calls server := by
  induction calls generalizing server with
  | nil => exact (List.append_nil _).symm
  | cons call rest ih =>
      rw [serveAll_cons, ih, store_StoreInvit, Function.update_self,
        madeInvitations, List.append_assoc]

theorem store_serveAll (calls : List Arrival) (server : Server)
    {table : Collections} (other : table ≠ .invitationTokens) :
    (serveAll env conf calls server).store table = server.store table := by
  induction calls generalizing server with
  | nil => rfl
  | cons call rest ih =>
      rw [serveAll_cons, ih, store_StoreInvit, Function.update_of_ne other]

theorem objWithKey_obj (content : JsValue) (key : KeyPair) :
    ∃ fields, objWithKey content key = .obj fields := by
  unfold objWithKey
  split
  · exact ⟨_, rfl⟩
  · exact ⟨_, rfl⟩

theorem madeInvitation_obj {row : InvitationToken} {store : Store}
    (h : madeInvitation env conf call store = some row) :
    ∃ fields, row.data = some (.obj fields) := by
  unfold madeInvitation at h
  split at h
  · cases h
  · rename_i invited _
    dsimp only at h
    split at h
    · cases h
    · cases h
      obtain ⟨fields, hfields⟩ :=
        objWithKey_obj invited.content call.keyPair
      exact ⟨fields, congrArg some hfields⟩

theorem madeInvitations_obj (calls : List Arrival) (server : Server) :
    ∀ row ∈ madeInvitations env conf calls server,
      ∃ fields, row.data = some (.obj fields) := by
  induction calls generalizing server with
  | nil => exact nofun
  | cons call rest ih =>
      intro row hrow
      rcases List.mem_append.mp hrow with hmade | hlater
      · exact madeInvitation_obj env conf call (Option.mem_toList.mp hmade)
      · exact ih _ row hlater

end Storing

/-! What a call gives out. -/

section Output

variable {env : Environment} {conf : Setup} {call : Arrival}

theorem lookupRefusal_congr {store other : Store}
    (same : ∀ table, table ≠ .invitationTokens → store table = other table)
    (content address : JsValue) :
    lookupRefusal env conf call content address store =
      lookupRefusal env conf call content address other := by
  unfold lookupRefusal lookupResponse
  rw [get_pepper, get_pepper, same .keys (by decide)]
  simp only [sent_lookup_received,
    received_congr (same .accessTokens (by decide))
      (same .userPolicies (by decide)), same .hashes (by decide)]

theorem invited_congr {store other : Store}
    (same : ∀ table, table ≠ .invitationTokens → store table = other table) :
    invited env conf call store = invited env conf call other := by
  unfold invited
  rw [received_congr (same .accessTokens (by decide))
    (same .userPolicies (by decide))]
  simp only [lookupRefusal_congr same]

/-- The public key of the first row once a key pair has been made. -/
def givenPublic (call : Arrival) (rows : List LongTermRow) : String :=
  ((rotated rows ++ [current call.keyPair]).head?.map (·.publicKey)).getD ""

/-- The message and the answer of a call that gets to its end. -/
def answer (conf : Setup) (call : Arrival) (invited : Invited)
    (publicKey privateKey : String) : Output :=
  match message conf invited.medium invited.content invited.address with
  | none => ⟨[unknownFailure], []⟩
  | some sent =>
      match redacted invited.medium invited.address with
      | none => ⟨[unknownFailure], [sent]⟩
      | some displayName =>
          ⟨[(200, responseBody displayName
            [⟨pubkeyUrl conf.toConf, publicKey⟩,
              ⟨ephemeralPubkeyUrl conf.toConf, privateKey⟩] call.token)],
            [sent]⟩

theorem conclude_eq_answer (invited : Invited) (ephemeralKey : KeyPair)
    {keys : KeyTables} {current : KeyPair}
    (first : getKeys keys = some current) :
    conclude conf call invited ephemeralKey keys =
      answer conf call invited current.publicKey ephemeralKey.privateKey := by
  unfold conclude answer
  cases message conf invited.medium invited.content invited.address with
  | none => rfl
  | some sent =>
      cases redacted invited.medium invited.address with
      | none => rfl
      | some displayName =>
          dsimp only
          rw [first]

/-- What a call gives out, as a function of what is drawn for it and of the
server without its secrets. -/
theorem output_StoreInvit (server : Server) :
    (StoreInvit env conf call server).2 =
      match invited env conf call server.store with
      | .error replies => ⟨replies, []⟩
      | .ok invited =>
          if conflicts .invitationTokens (server.store .invitationTokens)
              (invitationRow env call invited) then ⟨[unknownFailure], []⟩
          else answer conf call invited
            (givenPublic call server.keys.longTerm) call.drawn.privateKey := by
  unfold StoreInvit
  cases invited env conf call server.store with
  | error replies => rfl
  | ok invited =>
      dsimp only
      rw [createInvitation_eq]
      dsimp only
      split
      · rfl
      · dsimp only
        cases hrows : rotated server.keys.longTerm with
        | nil =>
            rw [conclude_eq_answer invited call.keyPair rfl, givenPublic, hrows]
            rfl
        | cons row rest =>
            rw [conclude_eq_answer invited call.keyPair rfl, givenPublic, hrows]
            rfl

theorem field_errMsg (code : ErrCode) (explanation : JsValue) :
    field (errMsg code explanation) "public_keys" = .undefined := rfl

theorem keyless_checked {conf : Conf} {content : JsValue}
    {replies : List (Nat × JsValue)}
    (h : checkedAddress conf content = .error replies) :
    ∀ reply ∈ replies, field reply.2 "public_keys" = .undefined := by
  have hemail : ∀ address, checkEmail address = .error replies →
      ∀ reply ∈ replies, field reply.2 "public_keys" = .undefined := by
    intro address h
    unfold checkEmail at h
    grind [field_errMsg]
  have hphone : ∀ phone, checkPhone conf phone = .error replies →
      ∀ reply ∈ replies, field reply.2 "public_keys" = .undefined := by
    intro phone h
    unfold checkPhone at h
    grind [field_errMsg]
  unfold checkedAddress at h
  dsimp only at h
  split at h
  · split at h
    · cases h
      simp [field_errMsg]
    · split at h
      · cases haddress : checkEmail (field content "address") with
        | error refused =>
            rw [haddress] at h
            cases h
            exact hemail _ haddress
        | ok address =>
            rw [haddress] at h
            cases h
      · cases haddress : checkPhone conf (field content "phone") with
        | error refused =>
            rw [haddress] at h
            cases h
            exact hphone _ haddress
        | ok address =>
            rw [haddress] at h
            cases h
  · cases h
    simp [field_errMsg]

theorem keyless_lookup {content address : JsValue} {store : Store}
    {reply : Nat × JsValue}
    (h : lookupRefusal env conf call content address store = some reply) :
    field reply.2 "public_keys" = .undefined := by
  have hinUse : ∀ sender, field (inUse sender).2 "public_keys" = .undefined :=
    fun sender => rfl
  unfold lookupRefusal at h
  grind [field_errMsg, unknownFailure, unexpectedStatus]

/-- The answers of a call that makes no invitation hold no keys. -/
theorem keyless_invited {store : Store} {replies : List (Nat × JsValue)}
    (h : invited env conf call store = .error replies) :
    ∀ reply ∈ replies, field reply.2 "public_keys" = .undefined := by
  unfold invited at h
  split at h
  · rename_i hreceived
    cases h
    unfold received at hreceived
    split at hreceived
    · cases hreceived
      simp [field_errMsg]
    · split at hreceived
      · cases hreceived
        simp [field_errMsg]
      · split at hreceived
        · cases hreceived
          simp
        · cases hreceived
        · cases hreceived
          simp [field_errMsg]
  · split at h
    · rename_i hchecked
      cases h
      exact keyless_checked hchecked
    · split at h
      · rename_i hrefusal
        cases h
        simpa using keyless_lookup hrefusal
      · cases h

end Output

/-! The keys over the calls. -/

/-- An answer holds this key. -/
def Output.HandsOut (output : Output) (key : PublicKey) : Prop :=
  ∃ reply ∈ output.replies, ∃ keys,
    field reply.2 "public_keys" = .arr keys ∧ PublicKey.toJson key ∈ keys

/-- Each key of an answer is valid right after it, and `bind` signs with the
key pair made for signing all along. -/
structure KeysHold (env : Environment) (conf : Setup) (signing : KeyPair)
    (start : Server) (calls : List Arrival) : Prop where
  verified : ∀ before call after, calls = before ++ call :: after → ∀ key,
    (StoreInvit env conf call (serveAll env conf before start)).2.HandsOut
        key →
      ReportedValid conf.toConf
        (StoreInvit env conf call (serveAll env conf before start)).1.keys key
  signing : ∀ before after, calls = before ++ after →
    (signingKey (serveAll env conf before start).keys).map
      LongTermRow.toKeyPair = some signing

section Keys

variable {env : Environment} {conf : Setup} {calls : List Arrival}
variable {server : Server} {signing : KeyPair}

theorem keys_of_invited (call : Arrival) (server : Server) :
    (StoreInvit env conf call server).1.keys =
      if (invited env conf call server.store).isOk then
        { server.keys with
          longTerm := rotated server.keys.longTerm ++ [current call.keyPair] }
      else server.keys := by
  unfold StoreInvit
  cases invited env conf call server.store with
  | error replies => rfl
  | ok invited =>
      dsimp only
      rw [createInvitation_eq]
      dsimp only
      split
      · rfl
      · rfl

theorem invited_StoreInvit (call other : Arrival) (server : Server) :
    invited env conf other (StoreInvit env conf call server).1.store =
      invited env conf other server.store := by
  refine invited_congr fun table htable => ?_
  rw [store_StoreInvit, Function.update_of_ne htable]

/-- The stage after some calls: each that comes to make an invitation has made
a key pair. -/
theorem stage_serveAll {made : Nat}
    (stage : Stage signing made server.keys.longTerm)
    (fresh : ∀ call ∈ calls, call.keyPair ≠ signing) :
    Stage signing
      (made + calls.countP fun call => (invited env conf call server.store).isOk)
      (serveAll env conf calls server).keys.longTerm := by
  induction calls generalizing made server with
  | nil => exact stage
  | cons call rest ih =>
      have hrest : ∀ other ∈ rest, other.keyPair ≠ signing :=
        fun other hother => fresh other (List.mem_cons_of_mem _ hother)
      have hkeys := @keys_of_invited env conf call server
      have hlater := fun made =>
        @ih (StoreInvit env conf call server).1 made
      simp only [invited_StoreInvit] at hlater
      rw [serveAll_cons, List.countP_cons]
      split at hkeys
      · rename_i hok
        rw [if_pos hok, Nat.add_comm _ 1, ← Nat.add_assoc]
        refine hlater (made + 1) ?_ hrest
        rw [hkeys]
        exact stage.renew (fresh call List.mem_cons_self)
      · rename_i hidle
        rw [if_neg hidle]
        exact hlater made (by rw [hkeys]; exact stage) hrest

/-- After any calls `bind` signs with the key made for signing exactly when at
most one of them has come to make an invitation. -/
theorem signingKey_serveAll_iff
    (alone : server.keys.longTerm = [current signing])
    (fresh : ∀ call ∈ calls, call.keyPair ≠ signing) :
    (signingKey (serveAll env conf calls server).keys).map
        LongTermRow.toKeyPair = some signing ↔
      calls.countP (fun call => (invited env conf call server.store).isOk) ≤
        1 := by
  have hstart : Stage signing 0 server.keys.longTerm := by
    rw [alone]
    exact .alone
  have hstage := @stage_serveAll env conf _ _ _ 0 hstart fresh
  rw [Nat.zero_add] at hstage
  rw [signingKey_eq]
  exact hstage.head?_eq_iff

/-- The key pairs of invitations are of another algorithm. -/
theorem keyPair_ne_signing (call : Arrival) (drawn : Drawn) :
    call.keyPair ≠ generateKeyPair .ed25519 drawn := by
  intro hsame
  have hid := congrArg (fun pair => pair.keyId.toList) hsame
  simp [Arrival.keyPair, generateKeyPair, Algorithm.name] at hid

theorem serveAll_append_singleton (calls : List Arrival) (call : Arrival)
    (server : Server) :
    serveAll env conf (calls ++ [call]) server =
      (StoreInvit env conf call (serveAll env conf calls server)).1 := by
  unfold serveAll
  rw [List.foldl_append]
  rfl

theorem shortTerm_serveAll (calls : List Arrival) (server : Server) :
    (serveAll env conf calls server).keys.shortTerm =
      server.keys.shortTerm := by
  induction calls generalizing server with
  | nil => rfl
  | cons call rest ih =>
      rw [serveAll_cons, ih, keys_of_invited]
      split
      · rfl
      · rfl

/-- A call that comes to its end hands out its private key. -/
theorem handsOut_key {call : Arrival}
    (ends : handsOut env conf call server.store = true) :
    (StoreInvit env conf call server).2.HandsOut
      ⟨ephemeralPubkeyUrl conf.toConf, call.drawn.privateKey⟩ := by
  unfold handsOut at ends
  rw [output_StoreInvit]
  cases hinvited : invited env conf call server.store with
  | error replies =>
      rw [hinvited] at ends
      cases ends
  | ok invited =>
      rw [hinvited] at ends
      dsimp only at ends ⊢
      rw [Bool.and_eq_true, Bool.and_eq_true, Bool.not_eq_true',
        Option.isSome_iff_exists, Option.isSome_iff_exists] at ends
      obtain ⟨⟨hfree, sent, hsent⟩, displayName, hname⟩ := ends
      rw [if_neg (Bool.eq_false_iff.mp hfree), answer, hsent]
      dsimp only
      rw [hname]
      exact ⟨_, List.mem_singleton_self _, _, rfl,
        List.mem_cons_of_mem _ (List.mem_singleton_self _)⟩

/-- Any other call hands out none. -/
theorem not_handsOut {call : Arrival}
    (unended : handsOut env conf call server.store = false)
    (key : PublicKey) : ¬ (StoreInvit env conf call server).2.HandsOut key := by
  unfold handsOut at unended
  rw [output_StoreInvit]
  rintro ⟨reply, hreply, keys, hkeys, _⟩
  cases hinvited : invited env conf call server.store with
  | error replies =>
      rw [hinvited] at hreply
      rw [keyless_invited hinvited reply hreply] at hkeys
      cases hkeys
  | ok invited =>
      rw [hinvited] at hreply unended
      dsimp only at hreply unended
      have hfailed : reply = unknownFailure → False := by
        rintro rfl
        cases hkeys
      split at hreply
      · exact hfailed (List.mem_singleton.mp hreply)
      · rename_i hfree
        rw [Bool.not_eq_true] at hfree
        rw [hfree, Bool.not_false, Bool.true_and] at unended
        unfold answer at hreply
        split at hreply
        · exact hfailed (List.mem_singleton.mp hreply)
        · rename_i sent hsent
          rw [hsent] at unended
          split at hreply
          · exact hfailed (List.mem_singleton.mp hreply)
          · rename_i displayName hname
            rw [hname] at unended
            cases unended

theorem KeysHold.unended (hold : KeysHold env conf signing server calls)
    (fresh : ∀ call ∈ calls, ∀ row ∈ server.keys.shortTerm,
      row.publicKey ≠ call.drawn.privateKey) :
    ∀ before call after, calls = before ++ call :: after →
      handsOut env conf call (serveAll env conf before server).store =
        false := by
  intro before call after hcalls
  rw [← Bool.not_eq_true]
  intro hends
  refine not_reportedValid ?_
    (hold.verified before call after hcalls _ (handsOut_key hends))
  rw [← serveAll_append_singleton, shortTerm_serveAll]
  exact fresh call (by rw [hcalls]; simp)

/-- The keys hold exactly as long as no call comes to its end, and at most one
key pair has been made beside the one for signing. -/
theorem keysHold_iff {drawn : Drawn} {made : Nat}
    (stage : Stage (generateKeyPair .ed25519 drawn) made server.keys.longTerm)
    (fresh : ∀ call ∈ calls, ∀ row ∈ server.keys.shortTerm,
      row.publicKey ≠ call.drawn.privateKey) :
    KeysHold env conf (generateKeyPair .ed25519 drawn) server calls ↔
      (∀ before call after, calls = before ++ call :: after →
        handsOut env conf call (serveAll env conf before server).store =
          false) ∧
        made + calls.countP
          (fun call => (invited env conf call server.store).isOk) ≤ 1 := by
  have hstage := fun calls => @stage_serveAll env conf calls _ _ _ stage
    fun call _ => keyPair_ne_signing call drawn
  constructor
  · intro hold
    refine ⟨hold.unended fresh, ?_⟩
    rw [← (hstage calls).head?_eq_iff, ← signingKey_eq]
    exact hold.signing calls [] (List.append_nil calls).symm
  · rintro ⟨hunended, hfew⟩
    constructor
    · intro before call after hcalls key hkey
      exact absurd hkey (not_handsOut (hunended before call after hcalls) key)
    · rintro before after rfl
      rw [signingKey_eq, (hstage before).head?_eq_iff]
      rw [List.countP_append] at hfew
      omega

end Keys

/-! A server that has a user and a pepper, and an invitation of that user. -/

def sampleSetup : Setup where
  serverName := "example.org"
  isMobilePhone := (["+33612345678"].contains ·)
  lookup := .sample

def sampleServer (hashes : List HashRow) : Server where
  store :=
    Function.update (Function.update (Function.update emptyStore .accessTokens
      [{ id := "b0b", data := some (.obj [("sub", .str "@bob:example.org")]) }])
      .keys [⟨"pepper", "matrixrocks"⟩]) .hashes hashes
  keys := signingTables

def invitationOf (address : String) : JsObject :=
  [("address", .str address), ("medium", .str "email"),
    ("room_id", .str "!r:example.org"), ("sender", .str "@bob:example.org")]

def invitationCall (address number : String) : Arrival where
  req := {
    authorization := some "Bearer b0b"
    body := some (.obj (invitationOf address)) }
  now := 0
  served := true
  drawn := ⟨number, "public-" ++ number, "private-" ++ number⟩
  token := "token-" ++ number

def phoneCall (number : String) : Arrival :=
  { invitationCall "" number with
    req := {
      authorization := some "Bearer b0b"
      body := some (.obj
        [("phone", .str "+33612345678"), ("medium", .str "msisdn"),
          ("room_id", .str "!r:example.org"),
          ("sender", .str "@bob:example.org")]) } }

/-- An invitation that cannot be sent makes a key pair; the keys still hold. -/
theorem keysHold_unsent :
    KeysHold (.offline id) { sampleSetup with smsReady := false } signingPair
      (sampleServer []) [phoneCall "1"] := by
  refine (keysHold_iff .alone (by simp [sampleServer, signingTables])).mpr
    ⟨fun before call after h => ?_, by decide +kernel⟩
  cases before with
  | nil =>
      cases h
      decide +kernel
  | cons first before =>
      have hlater := (List.cons.inj h).2
      cases before <;> cases hlater

/-- The private key that the first answer hands out is not valid, and after the
second one `bind` signs with the key of the first. -/
theorem invitations_disturb_keys :
    ¬ KeysHold (.offline id) sampleSetup signingPair (sampleServer [])
        [phoneCall "1", phoneCall "2"] ∧
      (signingKey (serveAll (.offline id) sampleSetup
        [phoneCall "1", phoneCall "2"] (sampleServer [])).keys).map (·.keyId) =
          some "curve25519:1" := by
  refine ⟨fun hold => ?_, by decide +kernel⟩
  have hended := hold.unended (by simp [sampleServer, signingTables]) []
    (phoneCall "1") [phoneCall "2"] rfl
  revert hended
  decide +kernel

/-- Two invitations are enough to replace the key. -/
theorem signingKey_serveAll_two :
    (signingKey (serveAll (.offline id) sampleSetup
      [invitationCall "alice@example.org" "1",
        invitationCall "carol@example.org" "2"] (sampleServer [])).keys).map
        LongTermRow.toKeyPair ≠ some signingPair := by
  refine mt (signingKey_serveAll_iff rfl ?_).mp (by decide +kernel)
  intro call hcall
  rcases List.mem_pair.mp hcall with rfl | rfl
  · decide
  · decide

def aliceInvited : List Arrival := [invitationCall "alice@example.org" "1"]

end TwakeKickstart.IdentityServer.Invitation.Handler
