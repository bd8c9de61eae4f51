import TwakeKickstart.Library.Base64
import TwakeKickstart.Library.JsonText

namespace TwakeKickstart.Crypto

open Library

/-! The signatures of JSON objects. -/

/-- The signatures of `tweetnacl`: `sign` gives the message behind its
signature, or throws on a key of another length; `verify` is
`sign.detached.verify`, which throws on a signature of another length. -/
structure Nacl where
  publicKey : (secretKey : List UInt8) → List UInt8
  sign : (message secretKey : List UInt8) → Option (List UInt8)
  verify : (message signature publicKey : List UInt8) → Bool
  signed : ∀ {message secretKey result}, sign message secretKey = some result →
    ∃ signature, signature.length = 64 ∧ result = signature ++ message
  signs : ∀ {message secretKey}, secretKey.length = 64 →
    (sign message secretKey).isSome = true
  verified : ∀ {message signature publicKey},
    verify message signature publicKey = true → signature.length = 64

/-- The keys of each object, sorted by their code units. -/
def sortedKeys (object : JsObject) : JsObject :=
  (object.mergeSort fun a b => unitsLe (codeUnits a.1) (codeUnits b.1)).foldl
    (fun sorted entry => sorted.assign entry.1 entry.2) []

mutual
def canonical : JsValue → JsValue
  | .arr items => .arr (canonicalItems items)
  | .obj fields => .obj (sortedKeys (canonicalFields fields))
  | value => value

def canonicalItems : List JsValue → List JsValue
  | [] => []
  | item :: rest => canonical item :: canonicalItems rest

def canonicalFields : JsObject → JsObject
  | [] => []
  | (key, value) :: rest => (key, canonical value) :: canonicalFields rest
end

def canonicalJson (value : JsValue) : String :=
  stringify (canonical value)

def toBase64Url (base64 : List Char) : List Char :=
  (base64.reverse.dropWhile (· == '=')).reverse.map fun c =>
    if c = '/' then '_' else if c = '+' then '-' else c

def fromBase64Url (base64Url : List Char) : List Char :=
  Base64.pad (base64Url.map fun c =>
    if c = '-' then '+' else if c = '_' then '/' else c)

/-- The bytes of a signing key; `none` when reading it throws. -/
def secretOf : JsValue → Option (List UInt8)
  | .str key => Base64.decode (fromBase64Url key.toList)
  | _ => none

/-- The text of a key that is written in two halves. -/
theorem secretOf_append {left right : String} {first second : List Char}
    (hleft : left = String.ofList first)
    (hright : right = String.ofList second) :
    secretOf (.str (left ++ right)) =
      Base64.decode (fromBase64Url (first ++ second)) := by
  rw [secretOf, String.toList_append, hleft, hright, String.toList_ofList,
    String.toList_ofList]

def without (names : List String) (object : JsObject) : JsObject :=
  object.filter fun entry => !names.contains entry.1

/-- What an object holds under a name that is an object there. -/
def objectAt (object : JsObject) (name : String) : JsObject :=
  match object.lookup name with
  | some (.obj fields) => fields
  | _ => []

/-- The read `holder[name]` as far as its fields can be copied: what is
inherited has none. -/
def member (holder : JsValue) (name : String) : JsValue :=
  match holder with
  | .obj fields => (fields.lookup name).getD .undefined
  | .arr items => ((arrayIndex name).bind (items[·]?)).getD .undefined
  | _ => .undefined

/-- The own fields that `{...value}` copies, of a text by its characters. -/
def spread : JsValue → JsObject
  | .obj fields => fields
  | .arr items => items.zipIdx.map fun item => (toString item.2, item.1)
  | .str text => text.toList.zipIdx.map fun c =>
      (toString c.2, .str (String.singleton c.1))
  | _ => []

/-- The assignment `holder[name] = value` of an object; `none` when it throws.
What is assigned to an array under another name than an index is no item. -/
def setMember (holder : JsValue) (name : String) (value : JsValue) :
    Option JsValue :=
  match holder with
  | .obj fields =>
      if name = "__proto__" ∧ fields.lookup name = none then some holder
      else some (.obj (JsObject.put fields name value))
  | .arr items =>
      match arrayIndex name with
      | some i =>
          some (.arr ((items ++ List.replicate (i + 1 - items.length)
            JsValue.undefined).set i value))
      | none => if name = "length" then none else some holder
  | _ => if name = "__proto__" then some holder else none

/-- `jsonObj.signatures ?? {}` -/
def signaturesOf (jsonObj : JsObject) : JsValue :=
  match (jsonObj.lookup "signatures").getD .undefined with
  | .undefined => .obj []
  | .null => .obj []
  | value => value

/-- The object without what is not signed. -/
def unsignedPart (jsonObj : JsObject) : JsObject :=
  without ["signatures", "unsigned"] jsonObj

/-- The bytes that are signed. -/
def signedText (jsonObj : JsObject) : List UInt8 :=
  utf8 (canonicalJson (.obj (unsignedPart jsonObj)))

/-- `none` when the key cannot be read, the signature throws or it cannot be
assigned. -/
def signJson (nacl : Nacl) (jsonObj : JsObject) (signingKey : JsValue)
    (signingName keyId : String) : Option JsObject :=
  let signatures := signaturesOf jsonObj
  let unsigned := (jsonObj.lookup "unsigned").getD .undefined
  (secretOf signingKey).bind fun secretKey =>
  (nacl.sign (signedText jsonObj) secretKey).bind fun signed =>
    let signature := String.ofList (Base64.encode signed)
    let named := JsObject.put (spread (member signatures signingName)) keyId
      (.str signature)
    (setMember signatures signingName (.obj named)).map fun signatures =>
      unsignedPart jsonObj ++ [("signatures", signatures)] ++
        if unsigned.truthy then [("unsigned", unsigned)] else []

/-- By the rules of Matrix: a signature of the object without its signatures
is found under a name and an ed25519 key. -/
def Verifies (nacl : Nacl) (object : JsObject) (signingName : String)
    (publicKey : List UInt8) : Prop :=
  ∃ keyId signature bytes, "ed25519:".toList <+: keyId.toList ∧
    (objectAt (objectAt object "signatures") signingName).lookup keyId =
      some (.str signature) ∧
    Base64.decode (Base64.pad signature.toList) = some bytes ∧
    nacl.verify (utf8 (canonicalJson
      (.obj (without ["signatures", "unsigned"] object)))) bytes publicKey =
        true

section Signing

variable {nacl : Nacl} {jsonObj body : JsObject} {signingKey : JsValue}
variable {signingName keyId : String}

theorem canonicalJson_obj_ne_empty (fields : JsObject) :
    canonicalJson (.obj fields) ≠ "" := by
  rw [canonicalJson, canonical]
  exact stringify_obj_ne_empty _

theorem signedText_ne_nil (jsonObj : JsObject) : signedText jsonObj ≠ [] :=
  utf8_ne_nil (canonicalJson_obj_ne_empty _)

theorem lookup_without {names : List String} {name : String}
    (out : name ∈ names) (object : JsObject) :
    (without names object).lookup name = none := by
  rw [List.lookup_eq_none_iff]
  intro entry hentry
  have hkept := (List.mem_filter.mp hentry).2
  rw [bne_iff_ne]
  rintro rfl
  simp [out] at hkept

theorem signaturesOf_of_fresh (fresh : jsonObj.lookup "signatures" = none) :
    signaturesOf jsonObj = .obj [] := by
  rw [signaturesOf, fresh]
  rfl

theorem setMember_nil (name : String) (value : JsValue) :
    setMember (.obj []) name value =
      some (.obj (if name = "__proto__" then [] else [(name, value)])) := by
  rw [setMember]
  by_cases h : name = "__proto__"
  · rw [if_pos ⟨h, rfl⟩, if_pos h]
  · rw [if_neg (fun hboth => h hboth.1), if_neg h]
    rfl

theorem signJson_isSome {secretKey : List UInt8}
    (read : secretOf signingKey = some secretKey)
    (sized : secretKey.length = 64)
    (fresh : jsonObj.lookup "signatures" = none)
    (signingName keyId : String) :
    (signJson nacl jsonObj signingKey signingName keyId).isSome = true := by
  obtain ⟨signed, hsigned⟩ :=
    Option.isSome_iff_exists.mp (@nacl.signs (signedText jsonObj) _ sized)
  unfold signJson
  dsimp only
  rw [read, Option.bind_some, hsigned, Option.bind_some,
    signaturesOf_of_fresh fresh, setMember_nil]
  rfl

theorem signJson_some
    (signed : signJson nacl jsonObj signingKey signingName keyId = some body) :
    ∃ signature signatures, signature.length = 64 ∧
      setMember (signaturesOf jsonObj) signingName
        (.obj ((spread (member (signaturesOf jsonObj) signingName)).put keyId
          (.str (String.ofList (Base64.encode
            (signature ++ signedText jsonObj)))))) = some signatures ∧
      body = unsignedPart jsonObj ++ [("signatures", signatures)] ++
        if ((jsonObj.lookup "unsigned").getD .undefined).truthy then
          [("unsigned", (jsonObj.lookup "unsigned").getD .undefined)]
        else [] := by
  unfold signJson at signed
  dsimp only at signed
  obtain ⟨secretKey, _, hsigned⟩ := Option.bind_eq_some_iff.mp signed
  obtain ⟨result, hresult, hset⟩ := Option.bind_eq_some_iff.mp hsigned
  obtain ⟨signatures, hsignatures, hbody⟩ := Option.map_eq_some_iff.mp hset
  obtain ⟨signature, hlength, rfl⟩ := nacl.signed hresult
  exact ⟨signature, signatures, hlength, hsignatures, hbody.symm⟩

theorem lookup_signatures {signatures : JsValue} {rest : JsObject} :
    (unsignedPart jsonObj ++ [("signatures", signatures)] ++ rest).lookup
      "signatures" = some signatures := by
  have hnone := lookup_without
    (List.mem_cons_self : "signatures" ∈ ["signatures", "unsigned"]) jsonObj
  rw [List.append_assoc, List.lookup_append, unsignedPart, hnone]
  rfl

/-- What stands under the name of the signer, in an object that had no
signature. -/
theorem signJson_eq (fresh : jsonObj.lookup "signatures" = none)
    (signed : signJson nacl jsonObj signingKey signingName keyId = some body) :
    ∃ message signature, message ≠ [] ∧ signature.length = 64 ∧
      objectAt (objectAt body "signatures") signingName =
        if signingName = "__proto__" then []
        else [(keyId, .str (String.ofList
          (Base64.encode (signature ++ message))))] := by
  obtain ⟨signature, signatures, hlength, hset, hbody⟩ := signJson_some signed
  refine ⟨signedText jsonObj, signature, signedText_ne_nil jsonObj, hlength, ?_⟩
  rw [signaturesOf_of_fresh fresh, setMember_nil, Option.some.injEq] at hset
  have hsignatures : objectAt body "signatures" =
      if signingName = "__proto__" then []
      else [(signingName, .obj [(keyId, .str (String.ofList
        (Base64.encode (signature ++ signedText jsonObj))))])] := by
    rw [hbody, objectAt, lookup_signatures, ← hset]
    rfl
  rw [hsignatures]
  split
  · rfl
  · simp [objectAt]

/-- The signature that is written holds the message as well, so that it is
none. -/
theorem not_verifies_signJson (fresh : jsonObj.lookup "signatures" = none)
    (signed : signJson nacl jsonObj signingKey signingName keyId = some body)
    (publicKey : List UInt8) : ¬ Verifies nacl body signingName publicKey := by
  rintro ⟨name, text, bytes, _, hlookup, hdecode, hverify⟩
  obtain ⟨message, signature, hmessage, hlength, hsigner⟩ :=
    signJson_eq fresh signed
  rw [hsigner] at hlookup
  split at hlookup
  · cases hlookup
  · have hmem := mem_of_lookup hlookup
    rw [List.mem_singleton, Prod.mk.injEq, JsValue.str.injEq] at hmem
    rw [hmem.2, String.toList_ofList, Base64.pad_encode, Base64.decode_encode]
      at hdecode
    have hbytes := nacl.verified hverify
    rw [← Option.some.inj hdecode, List.length_append, hlength] at hbytes
    have hempty : message.length = 0 := by omega
    exact hmessage (List.eq_nil_of_length_eq_zero hempty)

end Signing

end TwakeKickstart.Crypto
