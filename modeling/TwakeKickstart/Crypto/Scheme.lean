import TwakeKickstart.Crypto.SignJson

namespace TwakeKickstart.Crypto

open Library

/-! Signed objects by the scheme of Matrix. -/

def signatureAt (object : JsObject) (signingName keyId : String) :
    Option JsValue :=
  (objectAt (objectAt object "signatures") signingName).lookup keyId

/-- The object with one signature set, and nothing else changed. -/
structure WithSignature (jsonObj : JsObject) (signingName keyId : String)
    (signature : JsValue) (body : JsObject) : Prop where
  signature : signatureAt body signingName keyId = some signature
  others : ∀ name id, (name, id) ≠ (signingName, keyId) →
    signatureAt body name id = signatureAt jsonObj name id
  fields : ∀ name, name ≠ "signatures" →
    body.lookup name = jsonObj.lookup name

/-- The detached signature of the object without its signatures and what is not
signed, in base64 without padding. -/
def FollowsScheme (nacl : Nacl) (jsonObj : JsObject) (signingKey : JsValue)
    (signingName keyId : String) : Prop :=
  ∃ secretKey signature body, secretOf signingKey = some secretKey ∧
    signature.length = 64 ∧
    nacl.sign (signedText jsonObj) secretKey =
      some (signature ++ signedText jsonObj) ∧
    signJson nacl jsonObj signingKey signingName keyId = some body ∧
    WithSignature jsonObj signingName keyId
      (.str (String.ofList (Base64.unpadded (Base64.encode signature)))) body

/-- A verifier takes the signature that is written for the one of some key. -/
def Accepted (nacl : Nacl) (jsonObj : JsObject) (signingKey : JsValue)
    (signingName keyId : String) : Prop :=
  ∃ body text bytes publicKey,
    signJson nacl jsonObj signingKey signingName keyId = some body ∧
    signatureAt body signingName keyId = some (.str text) ∧
    Base64.decode (Base64.pad text.toList) = some bytes ∧
    nacl.verify (signedText body) bytes publicKey = true

section Written

variable {nacl : Nacl} {jsonObj body : JsObject} {signingKey : JsValue}
variable {signingName keyId : String}

/-- Whatever held the signatures, a signature that can be read under the name
is the one that was set. -/
theorem lookup_of_setMember {holder signatures found : JsValue}
    {named : JsObject}
    (set : setMember holder signingName (.obj named) = some signatures)
    (body_signatures : body.lookup "signatures" = some signatures)
    (h : signatureAt body signingName keyId = some found) :
    named.lookup keyId = some found := by
  unfold signatureAt at h
  rw [objectAt, objectAt, body_signatures] at h
  unfold setMember at set
  split at set
  · rename_i fields
    split at set
    · rename_i hguard
      cases set
      rw [hguard.2] at h
      cases h
    · cases set
      dsimp only at h
      rw [JsObject.lookup_put, if_pos rfl] at h
      exact h
  · split at set
    · cases set
      cases h
    · split at set
      · cases set
      · cases set
        cases h
  · rename_i hobject _
    split at set
    · cases set
      split at h
      · rename_i fields hfields
        split at hfields
        · rename_i inner hinner
          exact absurd (Option.some.inj hinner) (hobject inner)
        · cases hfields
      · cases h
    · cases set

theorem signatureAt_signJson {found : JsValue}
    (signed : signJson nacl jsonObj signingKey signingName keyId = some body)
    (h : signatureAt body signingName keyId = some found) :
    ∃ signature, signature.length = 64 ∧ found = .str (String.ofList
      (Base64.encode (signature ++ signedText jsonObj))) := by
  obtain ⟨signature, signatures, hlength, hset, hbody⟩ := signJson_some signed
  have hlookup := lookup_of_setMember hset
    (by rw [hbody, lookup_signatures]) h
  rw [JsObject.lookup_put, if_pos rfl] at hlookup
  exact ⟨signature, hlength, (Option.some.inj hlookup).symm⟩

theorem length_decode_ne {text : String} {bytes : List UInt8}
    (signed : signJson nacl jsonObj signingKey signingName keyId = some body)
    (h : signatureAt body signingName keyId = some (.str text))
    (decoded : Base64.decode (Base64.pad text.toList) = some bytes) :
    bytes.length ≠ 64 := by
  obtain ⟨signature, hlength, hfound⟩ := signatureAt_signJson signed h
  rw [JsValue.str.injEq] at hfound
  rw [hfound, String.toList_ofList, Base64.pad_encode, Base64.decode_encode,
    Option.some.injEq] at decoded
  have hmessage := List.length_pos_of_ne_nil (signedText_ne_nil jsonObj)
  rw [← decoded, List.length_append, hlength]
  omega

theorem not_withSignature {signature : List UInt8}
    (signed : signJson nacl jsonObj signingKey signingName keyId = some body)
    (sized : signature.length = 64) :
    ¬ WithSignature jsonObj signingName keyId
      (.str (String.ofList (Base64.unpadded (Base64.encode signature))))
        body := by
  intro h
  have hdecode := Base64.decode_unpadded_encode signature
  rw [← @String.toList_ofList (Base64.unpadded (Base64.encode signature))]
    at hdecode
  exact length_decode_ne signed h.signature hdecode sized

end Written

/-- What is written is the padded base64 text of the signature together with
the message, which is no signature of Matrix for any object. -/
theorem not_followsScheme (nacl : Nacl) (jsonObj : JsObject)
    (signingKey : JsValue) (signingName keyId : String) :
    ¬ FollowsScheme nacl jsonObj signingKey signingName keyId ∧
      ¬ Accepted nacl jsonObj signingKey signingName keyId := by
  constructor
  · rintro ⟨_, signature, body, _, hlength, _, hsigned, hbody⟩
    exact not_withSignature hsigned hlength hbody
  · rintro ⟨body, text, bytes, _, hsigned, htext, hdecode, hverify⟩
    exact length_decode_ne hsigned htext hdecode (nacl.verified hverify)

/-! The key pair of a seed with its signature of the empty object. -/

def seedPublic : List UInt8 :=
  [234, 74, 108, 99, 226, 156, 82, 10, 190, 245, 80, 123, 19, 46, 197, 249, 149,
    71, 118, 174, 190, 190, 123, 146, 66, 30, 234, 105, 20, 70, 210, 44]

def emptySignature : List UInt8 :=
  [180, 33, 91, 25, 3, 248, 178, 178, 101, 150, 69, 85, 250, 135, 52, 172, 214,
    209, 23, 60, 196, 210, 109, 52, 60, 76, 129, 20, 153, 195, 56, 241, 79, 226,
    35, 176, 117, 14, 134, 113, 194, 220, 147, 205, 100, 177, 98, 217, 154, 160,
    194, 11, 179, 75, 65, 135, 122, 192, 10, 28, 189, 133, 0, 0]

def seedNacl : Nacl where
  publicKey := fun secretKey => secretKey.drop 32
  sign := fun message secretKey =>
    if secretKey.length = 64 then some (emptySignature ++ message) else none
  verify := fun message signature publicKey =>
    decide (signature = emptySignature) && decide (publicKey = seedPublic) &&
      decide (message = utf8 "\x7b\x7d")
  signed := by
    intro message secretKey result h
    split at h
    · exact ⟨emptySignature, rfl, (Option.some.inj h).symm⟩
    · cases h
  signs := by
    intro message secretKey h
    rw [if_pos h]
    rfl
  verified := by
    intro message signature publicKey h
    rw [Bool.and_eq_true, Bool.and_eq_true, decide_eq_true_eq] at h
    rw [h.1.1]
    rfl

def seedKey : String :=
  "BwcHBwcHBwcHBwcHBwcHBwcHBwcHBwcHBwcHBwcHBwfqSmxj4pxSCr71UHsT" ++
    "LsX5lUd2rr6-e5JCHuppFEbSLA"

/-- The object is signed by the key of the seed, and the two characters of its
text stand in the signature. -/
theorem empty_object_not_followed :
    (signJson seedNacl [] (.str seedKey) "example.org" "ed25519:1").isSome =
        true ∧
      ¬ FollowsScheme seedNacl [] (.str seedKey) "example.org" "ed25519:1" := by
  have hread : secretOf (.str seedKey) =
      some (List.replicate 32 7 ++ seedPublic) :=
    (secretOf_append rfl rfl).trans (by decide +kernel)
  constructor
  · exact signJson_isSome hread rfl rfl "example.org" "ed25519:1"
  · rintro ⟨_, signature, body, _, hlength, _, hsigned, hbody⟩
    exact not_withSignature hsigned hlength hbody

end TwakeKickstart.Crypto
