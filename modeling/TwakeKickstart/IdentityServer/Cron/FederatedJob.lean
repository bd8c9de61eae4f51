import Mathlib.Data.List.Induction
import TwakeKickstart.Library.Traversal
import TwakeKickstart.IdentityServer.Cron.ChangePepper
import TwakeKickstart.IdentityServer.Cron.UpdateFederatedIdentityHashes

namespace TwakeKickstart.IdentityServer

open Library Utils

/-! The job that pushes the hashes of the directory to the federated identity
services: what each service asks for, and what it is sent. -/

/-- How the request for `hash_details` of a service ends. -/
inductive Reply where
  | rejected
  | unparsable
  | body (value : JsValue)

structure HashDetails where
  algorithms : JsValue
  lookupPepper : JsValue
  altLookupPeppers : JsValue

/-- The comparison `value < 1`; `none` when the conversion throws. -/
def belowOne (value : JsValue) : Option Bool :=
  match value with
  | .undefined => some false
  | .null => some true
  | .bool b => some (!b)
  | .num n => some (decide (n < 1))
  | value => value.text?.map fun text =>
      if text.trimAscii.isEmpty then true
      else (text.toInt?.map fun n => decide (n < 1)).getD false

def lengthOf : JsValue → JsValue
  | .str s => .num s.length
  | .arr items => .num items.length
  | .obj fields => (fields.lookup "length").getD .undefined
  | _ => .undefined

/-- The details in a body; `none` when a check fails or throws. -/
def readDetails : JsValue → Option HashDetails
  | .obj fields =>
      let read := fun name => (fields.lookup name).getD .undefined
      if (fields.lookup "errcode").isSome then none
      else if (read "algorithms").isNullish then none
      else if belowOne (lengthOf (read "algorithms")) ≠ some false then none
      else if (read "lookup_pepper").isNullish then none
      else
        some ⟨read "algorithms", read "lookup_pepper",
          read "alt_lookup_peppers"⟩
  | _ => none

/-- `algorithms[0]` -/
def firstAlgorithm : JsValue → JsValue
  | .str s => (s.toList.head?.map fun c => .str (String.singleton c)).getD
      .undefined
  | .arr items => items.head?.getD .undefined
  | .obj fields => (fields.lookup "0").getD .undefined
  | _ => .undefined

/-- `...(value ?? [])`; `none` when the value is not iterable. -/
def spread : JsValue → Option (List JsValue)
  | .undefined => some []
  | .null => some []
  | .arr items => some items
  | .str s => some (s.toList.map fun c => .str (String.singleton c))
  | _ => none

structure ServiceDetail where
  algorithm : JsValue
  peppers : List JsValue

def serviceDetail (body : HashDetails) : Option ServiceDetail :=
  (spread body.altLookupPeppers).map fun alternatives =>
    ⟨firstAlgorithm body.algorithms, body.lookupPepper :: alternatives⟩

def Reply.fulfilled : Reply → Option Reply
  | .rejected => none
  | reply => some reply

def Reply.details : Reply → Option HashDetails
  | .body value => readDetails value
  | _ => none

/-- The addresses that remain after both rounds, with the bodies that were
kept.  Each round filters the addresses by the positions of its failures. -/
def collectDetails (services : List (String × Reply)) :
    List String × List HashDetails :=
  let addresses := services.map Prod.fst
  let results := services.map fun service => service.2.fulfilled
  let responses := results.filterMap id
  let addresses :=
    Positions.without (Positions.failedAt Option.isNone results) addresses
  let bodies := responses.map Reply.details
  (Positions.without (Positions.failedAt Option.isNone bodies) addresses,
    bodies.filterMap id)

/-- The object whose fields are the addresses; `none` when a spread throws or
an address has no body. -/
def federatedIdentityServicesDetail (addresses : List String)
    (bodies : List HashDetails) : Option (String → Option ServiceDetail) :=
  addresses.zipIdx.foldlM (fun detail entry =>
    (bodies[entry.2]?.bind serviceDetail).map fun service =>
      Function.update detail entry.1 (some service)) fun _ => none

/-! The hashes of the directory. -/

/-- The environment of the job.  `self` is what the hash object is serialised
to. -/
structure HashClass where
  env : Environment
  sha512 : String → String
  self : JsValue

/-- The call of a member of the hash object; `none` when it throws.  Members
that every object inherits can be called as well. -/
def HashClass.call (hash : HashClass) (member text : String) :
    Option JsValue :=
  match member with
  | "sha256" => some (.str (hash.env.sha256 text))
  | "sha512" => some (.str (hash.sha512 text))
  | "toString" => some (.str "[object Object]")
  | "toLocaleString" => some (.str "[object Object]")
  | "valueOf" => some hash.self
  | "hasOwnProperty" => some (.bool false)
  | "isPrototypeOf" => some (.bool false)
  | "propertyIsEnumerable" => some (.bool false)
  | "__lookupGetter__" => some .undefined
  | "__lookupSetter__" => some .undefined
  | _ => none

/-- The text of a value in a template or as the name of a member. -/
def templateText : JsValue → Option String
  | .undefined => some "undefined"
  | .null => some "null"
  | value => value.text?

/-- The values that are hashed, with the word for their field. -/
def hashedValues (usersData : UpdatableFields) : List (String × String) :=
  usersData.flatMap fun (_, fields) => fieldsToHash.flatMap fun field =>
    match fields.value field with
    | none => []
    | some value =>
        if value ≠ "" ∧ fields.active = some 1 then
          [(field.format value, field.word)]
        else []

def hashValue (hash : HashClass) (algorithm pepper : JsValue)
    (entry : String × String) : Option JsValue :=
  (templateText algorithm).bind fun member =>
    (templateText pepper).bind fun pepper =>
      hash.call member (hashedText entry.1 entry.2 pepper)

def usersHashes (hash : HashClass) (usersData : UpdatableFields)
    (algorithm pepper : JsValue) : Option (List JsValue) :=
  (hashedValues usersData).mapM (hashValue hash algorithm pepper)

structure LookupsDetail where
  address : String
  algorithm : JsValue
  pepper : JsValue
  updatedHashes : List JsValue

def pushesTo (hash : HashClass) (usersData : UpdatableFields)
    (address : String) (service : ServiceDetail) :
    Option (List LookupsDetail) :=
  service.peppers.mapM fun pepper =>
    (usersHashes hash usersData service.algorithm pepper).map fun hashes =>
      ⟨address, service.algorithm, pepper, hashes⟩

/-- The requests of the job, each with the content it posts; `none` when the
job is rejected before it posts.  `usersData` and `host` are `none` when
reading them throws. -/
def updateFederatedIdentityHashes (hash : HashClass)
    (usersData : Option UpdatableFields) (host : Option String)
    (services : List (String × Reply)) : Option (List LookupsDetail) :=
  let (addresses, bodies) := collectDetails services
  (federatedIdentityServicesDetail addresses bodies).bind fun detail =>
    usersData.bind fun usersData =>
      (addresses.mapM fun address =>
        (detail address).bind (pushesTo hash usersData address)).bind
          fun requests => host.map fun _ => requests.flatten

def LookupsDetail.content (host : String) (detail : LookupsDetail) : JsValue :=
  .obj [("algorithm", detail.algorithm), ("pepper", detail.pepper),
    ("mappings", .obj [(host, .arr detail.updatedHashes)])]

/-! What the two rounds leave. -/

def kept (services : List (String × Reply)) : List (String × HashDetails) :=
  services.filterMap fun service =>
    service.2.details.map fun details => (service.1, details)

/-- The services whose request was not rejected, with what their bodies give. -/
def answered (services : List (String × Reply)) :
    List (String × Option HashDetails) :=
  services.filterMap fun service =>
    service.2.fulfilled.map fun reply => (service.1, reply.details)

section Rounds

variable (services : List (String × Reply))

theorem addresses_answered :
    Positions.without
        (Positions.failedAt Option.isNone
          (services.map fun service => service.2.fulfilled))
        (services.map Prod.fst) = (answered services).map Prod.fst := by
  have hpairs := Positions.without_failedAt Option.isNone
    (services.map fun service => (service.1, service.2.fulfilled))
  rw [List.map_map, List.map_map] at hpairs
  refine hpairs.trans ?_
  clear hpairs
  unfold answered
  induction services with
  | nil => rfl
  | cons service rest ih =>
      obtain ⟨address, reply⟩ := service
      cases reply with
      | rejected => exact ih
      | unparsable => exact congrArg (address :: ·) ih
      | body value => exact congrArg (address :: ·) ih

theorem bodies_answered :
    ((services.map fun service => service.2.fulfilled).filterMap id).map
        Reply.details = (answered services).map Prod.snd := by
  unfold answered
  induction services with
  | nil => rfl
  | cons service rest ih =>
      obtain ⟨address, reply⟩ := service
      cases reply with
      | rejected => exact ih
      | unparsable => exact congrArg (none :: ·) ih
      | body value => exact congrArg (readDetails value :: ·) ih

theorem addresses_kept :
    ((answered services).filter fun pair => !pair.2.isNone).map Prod.fst =
      (kept services).map Prod.fst := by
  unfold answered kept
  induction services with
  | nil => rfl
  | cons service rest ih =>
      obtain ⟨address, reply⟩ := service
      cases reply with
      | rejected => exact ih
      | unparsable => exact ih
      | body value =>
          cases hdetails : readDetails value with
          | none => simpa [Reply.fulfilled, Reply.details, hdetails] using ih
          | some details =>
              simpa [Reply.fulfilled, Reply.details, hdetails] using ih

theorem bodies_kept :
    ((answered services).map Prod.snd).filterMap id =
      (kept services).map Prod.snd := by
  unfold answered kept
  induction services with
  | nil => rfl
  | cons service rest ih =>
      obtain ⟨address, reply⟩ := service
      cases reply with
      | rejected => exact ih
      | unparsable => exact ih
      | body value =>
          cases hdetails : readDetails value with
          | none => simpa [Reply.fulfilled, Reply.details, hdetails] using ih
          | some details =>
              simpa [Reply.fulfilled, Reply.details, hdetails] using ih

theorem collectDetails_eq :
    collectDetails services =
      ((kept services).map Prod.fst, (kept services).map Prod.snd) := by
  simp only [collectDetails]
  rw [addresses_answered, bodies_answered, Positions.without_failedAt,
    addresses_kept, bodies_kept]

end Rounds

/-! The object of the details, and the requests. -/

/-- Two entries for one address carry the same details. -/
def Consistent (entries : List (String × HashDetails)) : Prop :=
  ∀ entry ∈ entries, ∀ other ∈ entries, entry.1 = other.1 →
    entry.2 = other.2

def detailOf (entries : List (String × HashDetails)) :
    Option (String → Option ServiceDetail) :=
  entries.foldlM (fun detail entry =>
    (serviceDetail entry.2).map fun service =>
      Function.update detail entry.1 (some service)) fun _ => none

theorem federatedIdentityServicesDetail_eq
    (entries : List (String × HashDetails)) :
    federatedIdentityServicesDetail (entries.map Prod.fst)
      (entries.map Prod.snd) = detailOf entries := by
  have hfold := @Positions.foldlM_zipIdx String HashDetails
    (String → Option ServiceDetail) Option _
    (fun detail address body => (body.bind serviceDetail).map fun service =>
      Function.update detail address (some service)) entries fun _ => none
  exact hfold

theorem detailOf_append (entries : List (String × HashDetails))
    (entry : String × HashDetails) :
    detailOf (entries ++ [entry]) = (detailOf entries).bind fun detail =>
      (serviceDetail entry.2).map fun service =>
        Function.update detail entry.1 (some service) := by
  unfold detailOf
  rw [List.foldlM_append]
  apply bind_congr
  intro detail
  rw [List.foldlM_cons]
  simp only [List.foldlM_nil]
  exact bind_pure _

/-- The object exists exactly when no spread throws, and then gives each
address its own details. -/
theorem detailOf_spec {entries : List (String × HashDetails)}
    (consistent : Consistent entries) :
    (detailOf entries = none ∧
      ∃ entry ∈ entries, serviceDetail entry.2 = none) ∨
    ∃ detail, detailOf entries = some detail ∧
      ∀ entry ∈ entries, ∃ service, serviceDetail entry.2 = some service ∧
        detail entry.1 = some service := by
  induction entries using List.reverseRecOn with
  | nil => exact .inr ⟨fun _ => none, rfl, by simp⟩
  | append_singleton entries last ih =>
      have hbefore : Consistent entries := fun entry hentry other hother =>
        consistent entry (List.mem_append_left _ hentry) other
          (List.mem_append_left _ hother)
      rw [detailOf_append]
      rcases ih hbefore with ⟨hnone, entry, hentry, hthrows⟩ |
        ⟨detail, hdetail, hall⟩
      · refine .inl ⟨by rw [hnone]; rfl, entry, ?_, hthrows⟩
        exact List.mem_append_left _ hentry
      · rw [hdetail]
        cases hlast : serviceDetail last.2 with
        | none => exact .inl ⟨rfl, last, by simp, hlast⟩
        | some service =>
            refine .inr ⟨Function.update detail last.1 (some service), rfl, ?_⟩
            intro entry hentry
            by_cases hsame : entry.1 = last.1
            · have heq := consistent entry hentry last (by simp) hsame
              refine ⟨service, by rw [heq, hlast], ?_⟩
              rw [hsame, Function.update_self]
            · have hmem : entry ∈ entries := by
                rcases List.mem_append.mp hentry with hmem | hlast'
                · exact hmem
                · exact absurd
                    (congrArg Prod.fst (List.mem_singleton.mp hlast')) hsame
              obtain ⟨other, hother, hlookup⟩ := hall entry hmem
              exact ⟨other, hother, by
                rw [Function.update_of_ne hsame, hlookup]⟩

/-- The pushes to one service that was kept. -/
def pushes (hash : HashClass) (usersData : UpdatableFields)
    (entry : String × HashDetails) : Option (List LookupsDetail) :=
  (serviceDetail entry.2).bind (pushesTo hash usersData entry.1)

/-- The job posts the pushes of the services that were kept, one after the
other, if none of them throws. -/
theorem job_eq (hash : HashClass) (usersData : Option UpdatableFields)
    (host : Option String) {services : List (String × Reply)}
    (consistent : Consistent (kept services)) :
    updateFederatedIdentityHashes hash usersData host services =
      usersData.bind fun usersData => host.bind fun _ =>
        ((kept services).mapM (pushes hash usersData)).map List.flatten := by
  simp only [updateFederatedIdentityHashes, collectDetails_eq]
  rw [federatedIdentityServicesDetail_eq]
  cases usersData with
  | none =>
      cases detailOf (kept services) with
      | none => rfl
      | some detail => rfl
  | some usersData =>
      rcases detailOf_spec consistent with ⟨hnone, entry, hentry, hthrows⟩ |
        ⟨detail, hdetail, hall⟩
      · have hpushes : pushes hash usersData entry = none := by
          rw [pushes, hthrows]
          rfl
        rw [hnone]
        simp only [Option.bind_none, Option.bind_some,
          mapM_eq_none_of_mem hentry hpushes, Option.map_none]
        cases host with
        | none => rfl
        | some name => rfl
      · have hsame : ((kept services).map Prod.fst).mapM (fun address =>
            (detail address).bind (pushesTo hash usersData address)) =
            (kept services).mapM (pushes hash usersData) := by
          rw [List.mapM_map]
          apply mapM_congr_of_mem
          intro entry hentry
          obtain ⟨service, hservice, hlookup⟩ := hall entry hentry
          rw [Function.comp_apply, hlookup, pushes, hservice]
        rw [hdetail]
        simp only [Option.bind_some]
        rw [hsame]
        cases (kept services).mapM (pushes hash usersData) with
        | none =>
            cases host with
            | none => rfl
            | some name => rfl
        | some requests =>
            cases host with
            | none => rfl
            | some name => rfl

end TwakeKickstart.IdentityServer
