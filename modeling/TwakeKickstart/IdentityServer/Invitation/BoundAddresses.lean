import TwakeKickstart.IdentityServer.Invitation.Handler
import TwakeKickstart.IdentityServer.Lookup.UpdateHash

namespace TwakeKickstart.IdentityServer.Invitation.Handler

open Library Utils

/-! Which addresses `StoreInvit` takes for bound ones. -/

/-- A call whose parameters are accepted, with the address in them. -/
structure Valid (conf : Setup) (call : Arrival) (store : Store)
    (content : JsValue) (medium address : String) : Prop where
  received : received schema store call.req = .ok content
  checked : checkedAddress conf.toConf content = .ok (medium, .str address)

def SaysInUse (output : Output) : Prop :=
  ∃ reply ∈ output.replies,
    reply.2.property "errcode" = some (.str "M_THREEPID_IN_USE")

def fieldOf (medium : String) : Field :=
  if medium = "email" then .email else .phone

/-- The text that `updateHash` hashes for an address. -/
def addressText (medium address pepper : String) : String :=
  hashedText ((fieldOf medium).format address) (fieldOf medium).word pepper

/-- An active row has the hash of the address under the current pepper. -/
def Associated (env : Environment) (store : Store) (medium address : String) :
    Prop :=
  ∃ key ∈ (store .keys).find? (·.name == "pepper"),
    ∃ row ∈ store .hashes, row.active = some 1 ∧
      row.hash = env.sha256 (addressText medium address key.data)

/-- The reply tells whether the address is associated. -/
def Detects (env : Environment) (conf : Setup) (call : Arrival)
    (server : Server) (medium address : String) : Prop :=
  SaysInUse (StoreInvit env conf call server).2 ↔
    Associated env server.store medium address

/-- The call comes to an answer of the lookup endpoint. -/
structure Asks (conf : Setup) (call : Arrival) (store : Store) : Prop where
  served : call.served = true
  header : call.req.authorization.isSome = true
  pepper : ((store .keys).find? (·.name == "pepper")).isSome = true
  limit : 1 ≤ conf.lookup.hashesRateLimit

/-! The mappings of an answer. -/

theorem put_ne_nil (object : JsObject) (key : String) (value : JsValue) :
    object.put key value ≠ [] := by
  cases object with
  | nil => exact List.cons_ne_nil _ _
  | cons entry rest =>
      rw [JsObject.put]
      split
      · exact List.cons_ne_nil _ _
      · exact List.cons_ne_nil _ _

theorem assignAll_eq_nil_iff (rows : List HashRow) :
    assignAll rows = [] ↔ ∀ row ∈ rows, row.hash = "__proto__" := by
  induction rows using List.reverseRecOn with
  | nil => simp [assignAll]
  | append_singleton rows last ih =>
      have hstep : assignAll (rows ++ [last]) =
          (assignAll rows).assign last.hash (.str last.value) := by
        simp [assignAll]
      rw [hstep, JsObject.assign]
      split
      · rename_i hproto
        rw [ih]
        simp [or_imp, forall_and, hproto]
      · rename_i hproto
        refine iff_of_false (put_ne_nil _ _ _) fun hall => ?_
        exact hproto (hall last (by simp))

theorem foundMappings_lookupBody (conf : Config) (rows : List HashRow) :
    foundMappings (lookupBody conf rows) = true ↔
      ∃ row ∈ rows, row.active = some 1 ∧ row.hash ≠ "__proto__" := by
  have hmappings : foundMappings (lookupBody conf rows) =
      !(assignAll (rows.filter (·.active == some 1))).isEmpty := by
    unfold lookupBody
    rw [foldl_collectMapping]
    dsimp only
    split
    · rfl
    · rfl
  rw [hmappings, Bool.not_eq_true', List.isEmpty_eq_false_iff, ne_eq,
    assignAll_eq_nil_iff]
  simp only [List.mem_filter, beq_iff_eq, and_imp, not_forall, exists_prop]

section Detection

variable {env : Environment} {conf : Setup} {call : Arrival} {store : Store}
variable {content : JsValue} {medium address : String}

/-- A text that is accepted is neither empty nor the one that cannot be a
key. -/
theorem Valid.plain
    (digits : ∀ phone, conf.isMobilePhone phone = true →
      ∃ c ∈ phone.toList, c.isDigit = true)
    (valid : Valid conf call store content medium address) :
    address ≠ "" ∧ address ≠ "__proto__" := by
  rcases (checkedAddress_ok valid.checked).2 with
    ⟨_, _, haccepted⟩ | ⟨_, _, number, hnumber, haccepted⟩
  · rw [testValue_str, Option.some.injEq] at haccepted
    constructor
    · rintro rfl
      exact absurd haccepted (by decide)
    · rintro rfl
      exact absurd haccepted (by decide)
  · cases hnumber
    obtain ⟨c, hc, hdigit⟩ := digits address haccepted
    constructor
    · rintro rfl
      cases hc
    · rintro rfl
      have hnone : "__proto__".toList.any Char.isDigit = false := by decide
      rw [List.any_eq_false] at hnone
      exact hnone c hc hdigit

/-- The lookup endpoint, which is sent the address as it is, knows an address
that stands in place of a hash. -/
def Known (store : Store) (address : String) : Prop :=
  ∃ row ∈ store .hashes, row.active = some 1 ∧ row.hash = address

theorem foundMappings_known (conf : Config) (named : address ≠ "")
    (ordinary : address ≠ "__proto__") :
    foundMappings (lookupBody conf (selectHashes (store .hashes) [address])) =
        true ↔ Known store address := by
  have hdropped : ¬ droppedAddresses [address] := by
    rintro (hnone | hempty)
    · cases hnone
    · exact named (List.cons.inj hempty).1
  rw [foundMappings_lookupBody]
  constructor
  · rintro ⟨row, hrow, hactive, _⟩
    obtain ⟨hmem, hselected⟩ := mem_selectHashes.mp hrow
    exact ⟨row, hmem, hactive,
      List.mem_singleton.mp (hselected.resolve_left hdropped)⟩
  · rintro ⟨row, hrow, hactive, rfl⟩
    exact ⟨row, mem_selectHashes.mpr ⟨hrow, .inr List.mem_cons_self⟩, hactive,
      ordinary⟩

/-- A refusal that does not tell that the address is in use. -/
def Inconclusive (refusal : Option (Nat × JsValue)) : Prop :=
  ∀ reply ∈ refusal, ∃ explanation, reply.2 = errMsg .unknown explanation

theorem lookupRefusal_of_asks
    (received : received schema store call.req = .ok content)
    (asks : Asks conf call store) :
    lookupRefusal env conf call content (.str address) store =
      if foundMappings (lookupBody conf.lookup
          (selectHashes (store .hashes) [address])) then
        some (inUse (field content "sender"))
      else none := by
  obtain ⟨data, hidentify⟩ := identify_of_received received
  obtain ⟨header, hheader⟩ := Option.isSome_iff_exists.mp asks.header
  obtain ⟨key, hkey⟩ := Option.isSome_iff_exists.mp asks.pepper
  rw [← pepperRow_eq_head?] at hkey
  unfold lookupRefusal
  rw [hheader, get_pepper]
  cases hkeys : (store .keys).filter (·.name == "pepper") with
  | nil =>
      rw [hkeys] at hkey
      cases hkey
  | cons first rest =>
      dsimp only
      rw [lookupResponse_eq hheader hidentify, if_pos asks.served,
        acceptedAddresses_single]
      dsimp only
      rw [if_pos asks.limit]
      dsimp only
      rw [if_pos rfl]

theorem lookupRefusal_inconclusive
    (received : received schema store call.req = .ok content)
    (unasked : ¬ Asks conf call store) :
    Inconclusive (lookupRefusal env conf call content (.str address) store)
    := by
  obtain ⟨data, hidentify⟩ := identify_of_received received
  intro reply hreply
  unfold lookupRefusal at hreply
  cases hheader : call.req.authorization with
  | none =>
      rw [hheader] at hreply
      cases hreply
      exact ⟨errorObject, rfl⟩
  | some header =>
      rw [hheader, get_pepper] at hreply
      cases hkeys : (store .keys).filter (·.name == "pepper") with
      | nil =>
          rw [hkeys] at hreply
          cases hreply
          exact ⟨_, rfl⟩
      | cons key rest =>
          rw [hkeys] at hreply
          dsimp only at hreply
          rw [lookupResponse_eq hheader hidentify, acceptedAddresses_single]
            at hreply
          have hpepper : ((store .keys).find? (·.name == "pepper")).isSome =
              true := by
            rw [← pepperRow_eq_head?, hkeys]
            rfl
          by_cases hserved : call.served = true
          · have hlimit : ¬ 1 ≤ conf.lookup.hashesRateLimit := fun hlimit =>
              unasked ⟨hserved, by rw [hheader]; rfl, hpepper, hlimit⟩
            dsimp only at hreply
            rw [if_pos hserved, if_neg hlimit] at hreply
            cases hreply
            exact ⟨_, rfl⟩
          · rw [if_neg hserved] at hreply
            cases hreply
            exact ⟨errorObject, rfl⟩

theorem not_saysInUse_unknown {replies : List (Nat × JsValue)}
    {messages : List Message}
    (unknown : ∀ reply ∈ replies,
      reply.2.property "errcode" ≠ some (.str "M_THREEPID_IN_USE")) :
    ¬ SaysInUse ⟨replies, messages⟩ := by
  rintro ⟨reply, hreply, hcode⟩
  exact unknown reply hreply hcode

theorem errcode_unknown (explanation : JsValue) :
    (errMsg .unknown explanation).property "errcode" ≠
      some (.str "M_THREEPID_IN_USE") := by
  intro h
  rw [errMsg, JsValue.property] at h
  simp [errCodes] at h

theorem not_saysInUse_createInvitation (invited : Invited) (server : Server) :
    ¬ SaysInUse (createInvitation env conf call invited server).2 := by
  have hunknown : ∀ messages, ¬ SaysInUse ⟨[unknownFailure], messages⟩ := by
    intro messages
    refine not_saysInUse_unknown fun reply hreply => ?_
    rw [List.mem_singleton.mp hreply]
    exact errcode_unknown errorObject
  unfold createInvitation
  split
  · exact not_saysInUse_unknown nofun
  · split
    · exact hunknown []
    · unfold conclude
      split
      · exact hunknown []
      · split
        · exact hunknown _
        · split
          · exact hunknown _
          · refine not_saysInUse_unknown fun reply hreply => ?_
            rw [List.mem_singleton.mp hreply]
            exact nofun

/-- A valid address is reported just when the endpoint is asked and knows it as
it stands. -/
theorem saysInUse_iff
    (digits : ∀ phone, conf.isMobilePhone phone = true →
      ∃ c ∈ phone.toList, c.isDigit = true) {server : Server}
    (valid : Valid conf call server.store content medium address) :
    SaysInUse (StoreInvit env conf call server).2 ↔
      Asks conf call server.store ∧ Known server.store address := by
  obtain ⟨hnamed, hordinary⟩ := valid.plain digits
  unfold StoreInvit
  rw [invited_eq valid.received valid.checked]
  by_cases hasks : Asks conf call server.store
  · rw [lookupRefusal_of_asks valid.received hasks]
    by_cases hknown : Known server.store address
    · rw [if_pos ((foundMappings_known conf.lookup hnamed hordinary).mpr
        hknown)]
      exact iff_of_true ⟨_, List.mem_singleton_self _, rfl⟩ ⟨hasks, hknown⟩
    · rw [if_neg fun hfound => hknown
        ((foundMappings_known conf.lookup hnamed hordinary).mp hfound)]
      exact iff_of_false (not_saysInUse_createInvitation _ _)
        fun asked => hknown asked.2
  · have hinconclusive := @lookupRefusal_inconclusive env conf call _ content
      address valid.received hasks
    refine iff_of_false ?_ fun asked => hasks asked.1
    cases hrefusal : lookupRefusal env conf call content (.str address)
        server.store with
    | none => exact not_saysInUse_createInvitation _ _
    | some reply =>
        obtain ⟨explanation, hreply⟩ := hinconclusive reply hrefusal
        refine not_saysInUse_unknown fun other hother => ?_
        rw [List.mem_singleton.mp hother, hreply]
        exact errcode_unknown explanation

end Detection

/-- An address is detected just as long as a row that holds it in place of its
hash, seen through the lookup endpoint, and a row that holds its hash go
together. -/
theorem detects_iff {env : Environment} {conf : Setup} {call : Arrival}
    {server : Server} {content : JsValue} {medium address : String}
    (digits : ∀ phone, conf.isMobilePhone phone = true →
      ∃ c ∈ phone.toList, c.isDigit = true)
    (valid : Valid conf call server.store content medium address) :
    Detects env conf call server medium address ↔
      (Asks conf call server.store ∧ Known server.store address ↔
        Associated env server.store medium address) := by
  rw [Detects, saysInUse_iff digits valid]

theorem valid_alice (hashes : List HashRow) :
    Valid sampleSetup (invitationCall "alice@example.org" "1")
      (sampleServer hashes).store (.obj (invitationOf "alice@example.org"))
      "email" "alice@example.org" := by
  refine ⟨rfl, ?_⟩
  have haccepted : validEmailRe.test "alice@example.org" = true := by
    decide
  have hfield : field (.obj (invitationOf "alice@example.org")) "address" =
      .str "alice@example.org" := rfl
  rw [checkedAddress_email rfl, hfield, checkEmail, testValue_str, haccepted]
  rfl

theorem digits_sample (phone : String)
    (h : sampleSetup.isMobilePhone phone = true) :
    ∃ c ∈ phone.toList, c.isDigit = true := by
  have hphone : phone = "+33612345678" := by
    simpa [sampleSetup] using h
  rw [hphone]
  exact ⟨'3', by decide, by decide⟩

/-- The digests of the texts below. -/
def aliceSha256 (text : String) : String :=
  if text = "alice@example.org email matrixrocks" then
    "ADTG1aSB-ThqvheAhaXuWdHkpeB974n8sc7-_lrP8dU"
  else if text = "alice@example.org" then
    "emSt8oc36pBxnL3wsah6Xv__N1O3nJHXF_T0FT6tBJg"
  else ""

theorem detects_unknown :
    Detects (.offline aliceSha256) sampleSetup
      (invitationCall "alice@example.org" "1") (sampleServer []) "email"
      "alice@example.org" := by
  refine (detects_iff digits_sample (valid_alice [])).mpr
    (iff_of_false ?_ ?_)
  · rintro ⟨_, row, hrow, _⟩
    cases hrow
  · rintro ⟨_, _, row, hrow, _⟩
    cases hrow

def aliceHash : HashRow where
  hash := "ADTG1aSB-ThqvheAhaXuWdHkpeB974n8sc7-_lrP8dU"
  pepper := "matrixrocks"
  type := "email"
  value := "@alice:example.org"
  active := some 1

/-- An associated address is not detected. -/
theorem alice_undetected :
    ¬ Detects (.offline aliceSha256) sampleSetup
      (invitationCall "alice@example.org" "1") (sampleServer [aliceHash])
      "email" "alice@example.org" := by
  intro detects
  have hassociated : Associated (.offline aliceSha256)
      (sampleServer [aliceHash]).store "email" "alice@example.org" :=
    ⟨_, rfl, aliceHash, List.mem_singleton_self _, rfl, by decide⟩
  obtain ⟨_, row, hrow, _, hhash⟩ := (saysInUse_iff digits_sample
    (valid_alice [aliceHash])).mp (detects.mpr hassociated)
  rw [List.mem_singleton.mp hrow] at hhash
  revert hhash
  decide

end TwakeKickstart.IdentityServer.Invitation.Handler
