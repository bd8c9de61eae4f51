import TwakeKickstart.IdentityServer.Cron.Directory
import TwakeKickstart.IdentityServer.Cron.FederatedJob

namespace TwakeKickstart.IdentityServer

open Library Utils

/-! What the federated services are promised, and when the job keeps it. -/

/-- What a service that works asks for: its first algorithm and its peppers,
the current one first. -/
structure Advert where
  algorithm : String
  peppers : List String

/-- What a reply advertises; nothing when the request or its body failed or the
details are incomplete. -/
inductive Advertises : Reply → Option Advert → Prop where
  | rejected : Advertises .rejected none
  | unparsable : Advertises .unparsable none
  | notObject {value : JsValue} (shape : ∀ fields, value ≠ .obj fields) :
      Advertises (.body value) none
  | errorBody {fields : List (String × JsValue)} {errcode : JsValue}
      (error : fields.lookup "errcode" = some errcode) :
      Advertises (.body (.obj fields)) none
  | withoutAlgorithms {fields : List (String × JsValue)}
      (missing : fields.lookup "algorithms" = none ∨
        fields.lookup "algorithms" = some .null ∨
        fields.lookup "algorithms" = some (.arr [])) :
      Advertises (.body (.obj fields)) none
  | withoutPepper {fields : List (String × JsValue)}
      (missing : fields.lookup "lookup_pepper" = none ∨
        fields.lookup "lookup_pepper" = some .null) :
      Advertises (.body (.obj fields)) none
  | details {fields : List (String × JsValue)} {algorithm pepper : String}
      {others alternatives : List String}
      (noError : fields.lookup "errcode" = none)
      (algorithms : fields.lookup "algorithms" =
        some (.strings (algorithm :: others)))
      (lookupPepper : fields.lookup "lookup_pepper" = some (.str pepper))
      (altLookupPeppers :
        alternatives = [] ∧ (fields.lookup "alt_lookup_peppers" = none ∨
          fields.lookup "alt_lookup_peppers" = some .null) ∨
        fields.lookup "alt_lookup_peppers" = some (.strings alternatives)) :
      Advertises (.body (.obj fields))
        (some ⟨algorithm, pepper :: alternatives⟩)

def HashClass.digest (hash : HashClass) : String → Option (String → String)
  | "sha256" => some hash.env.sha256
  | "sha512" => some hash.sha512
  | _ => none

/-- The hashes of the active users with one pepper. -/
def directoryHashes (digest : String → String) (usersData : UpdatableFields)
    (pepper : String) : List String :=
  (hashedValues usersData).map fun entry =>
    digest (hashedText entry.1 entry.2 pepper)

def Advert.posts (digest : String → String) (usersData : UpdatableFields)
    (address : String) (advert : Advert) : List LookupsDetail :=
  advert.peppers.map fun pepper =>
    ⟨address, .str advert.algorithm, .str pepper,
      (directoryHashes digest usersData pepper).map .str⟩

/-- The requests for a service: one for each of its peppers when it advertises
an algorithm of the hash class, none otherwise. -/
def expectedPosts (hash : HashClass) (usersData : UpdatableFields)
    (address : String) (advert : Option Advert) : List LookupsDetail :=
  match advert with
  | none => []
  | some advert =>
      match hash.digest advert.algorithm with
      | none => []
      | some digest => advert.posts digest usersData address

/-! The details that a reply leaves. -/

theorem details_of_advertises {reply : Reply} {advert : Advert}
    (h : Advertises reply (some advert)) :
    ∃ details, reply.details = some details ∧
      serviceDetail details =
        some ⟨.str advert.algorithm, advert.peppers.map .str⟩ := by
  cases h with
  | @details fields algorithm pepper others alternatives noError algorithms
      lookupPepper altLookupPeppers =>
      have hone : belowOne (lengthOf (.strings (algorithm :: others))) =
          some false := by
        simp only [lengthOf, JsValue.strings, belowOne, List.length_map,
          List.length_cons, Option.some.injEq, decide_eq_false_iff_not]
        omega
      refine ⟨⟨.strings (algorithm :: others), .str pepper,
        (fields.lookup "alt_lookup_peppers").getD .undefined⟩, ?_, ?_⟩
      · simp only [Reply.details, readDetails, noError, algorithms,
          lookupPepper, Option.getD_some, hone]
        rfl
      · unfold serviceDetail
        rcases altLookupPeppers with ⟨rfl, hnone | hnull⟩ | hgiven
        · rw [hnone]
          rfl
        · rw [hnull]
          rfl
        · rw [hgiven]
          rfl

theorem details_of_failed {reply : Reply} (h : Advertises reply none) :
    reply.details = none := by
  cases h with
  | rejected => rfl
  | unparsable => rfl
  | @notObject value shape =>
      cases value with
      | obj fields => exact absurd rfl (shape fields)
      | undefined => rfl
      | null => rfl
      | bool b => rfl
      | num n => rfl
      | str s => rfl
      | arr items => rfl
  | errorBody error => simp [Reply.details, readDetails, error]
  | withoutAlgorithms missing =>
      rcases missing with hnone | hnull | hempty
      · simp [Reply.details, readDetails, hnone, JsValue.isNullish]
      · simp [Reply.details, readDetails, hnull, JsValue.isNullish]
      · simp [Reply.details, readDetails, hempty, lengthOf, belowOne]
  | withoutPepper missing =>
      rcases missing with hnone | hnull
      · simp [Reply.details, readDetails, hnone, JsValue.isNullish]
      · simp [Reply.details, readDetails, hnull, JsValue.isNullish]

section Payload

variable (hash : HashClass) (usersData : UpdatableFields)

theorem call_of_digest {algorithm : String} {digest : String → String}
    (h : hash.digest algorithm = some digest) (text : String) :
    hash.call algorithm text = some (.str (digest text)) := by
  unfold HashClass.digest at h
  split at h
  · cases h
    rfl
  · cases h
    rfl
  · cases h

theorem usersHashes_of_digest {algorithm : String} {digest : String → String}
    (h : hash.digest algorithm = some digest) (pepper : String) :
    usersHashes hash usersData (.str algorithm) (.str pepper) =
      some ((directoryHashes digest usersData pepper).map .str) := by
  unfold usersHashes directoryHashes
  rw [List.map_map]
  apply mapM_eq_some_map
  intro entry _
  simp only [hashValue, templateText, JsValue.text?_str, Option.bind_some]
  exact call_of_digest hash h _

theorem pushesTo_of_digest {algorithm : String} {digest : String → String}
    (h : hash.digest algorithm = some digest) (address : String)
    (peppers : List String) :
    pushesTo hash usersData address ⟨.str algorithm, peppers.map .str⟩ =
      some (Advert.posts digest usersData address ⟨algorithm, peppers⟩) := by
  unfold pushesTo Advert.posts
  rw [List.mapM_map]
  apply mapM_eq_some_map
  intro pepper _
  rw [Function.comp_apply, usersHashes_of_digest hash usersData h]
  rfl

/-- The pushes to a service that advertises an algorithm of the hash class are
the expected ones. -/
theorem pushes_of_advertises {reply : Reply} {advert : Advert}
    (advertises : Advertises reply (some advert)) (address : String)
    (supported : (hash.digest advert.algorithm).isSome) :
    ∃ details, reply.details = some details ∧
      pushes hash usersData (address, details) =
        some (expectedPosts hash usersData address (some advert)) := by
  obtain ⟨details, hdetails, hservice⟩ := details_of_advertises advertises
  obtain ⟨digest, hdigest⟩ := Option.isSome_iff_exists.mp supported
  refine ⟨details, hdetails, ?_⟩
  rw [pushes, hservice, Option.bind_some,
    pushesTo_of_digest hash usersData hdigest]
  simp only [expectedPosts, hdigest]

theorem address_of_expected {address : String} {advert : Option Advert}
    {post : LookupsDetail}
    (h : post ∈ expectedPosts hash usersData address advert) :
    post.address = address := by
  unfold expectedPosts at h
  split at h
  · cases h
  · split at h
    · cases h
    · obtain ⟨pepper, _, rfl⟩ := List.mem_map.mp h
      rfl

end Payload

theorem mem_kept {services : List (String × Reply)} {address : String}
    {details : HashDetails} :
    (address, details) ∈ kept services ↔
      ∃ reply, (address, reply) ∈ services ∧ reply.details = some details := by
  unfold kept
  rw [List.mem_filterMap]
  constructor
  · rintro ⟨⟨other, reply⟩, hservice, hmap⟩
    obtain ⟨found, hfound, hpair⟩ := Option.map_eq_some_iff.mp hmap
    cases hpair
    exact ⟨reply, hservice, hfound⟩
  · rintro ⟨reply, hservice, hdetails⟩
    exact ⟨(address, reply), hservice, by rw [hdetails]; rfl⟩

theorem reply_unique {services : List (String × Reply)}
    (distinct : (services.map Prod.fst).Nodup) {address : String}
    {first second : Reply} (hfirst : (address, first) ∈ services)
    (hsecond : (address, second) ∈ services) : first = second :=
  congrArg Prod.snd
    (List.inj_on_of_nodup_map distinct hfirst hsecond rfl)

theorem consistent_of_nodup {services : List (String × Reply)}
    (distinct : (services.map Prod.fst).Nodup) : Consistent (kept services) := by
  rintro ⟨address, details⟩ hentry ⟨other, otherDetails⟩ hother hsame
  obtain ⟨reply, hservice, hdetails⟩ := mem_kept.mp hentry
  obtain ⟨otherReply, hotherService, hotherDetails⟩ := mem_kept.mp hother
  cases hsame
  rw [reply_unique distinct hservice hotherService, hotherDetails] at hdetails
  exact (Option.some.inj hdetails).symm

theorem addresses_sublist (services : List (String × Reply)) :
    List.Sublist ((kept services).map Prod.fst) (services.map Prod.fst) := by
  unfold kept
  induction services with
  | nil => exact List.Sublist.refl _
  | cons service rest ih =>
      rw [List.filterMap_cons]
      cases service.2.details with
      | none => exact ih.cons service.1
      | some details => exact ih.cons_cons service.1

section Owners

variable {α β : Type} {owner : α → String} {parts : String × β → List α}
variable {items : List (String × β)}

theorem filter_flatMap_absent
    (owned : ∀ item ∈ items, ∀ part ∈ parts item, owner part = item.1)
    {name : String} (absent : name ∉ items.map Prod.fst) :
    (items.flatMap parts).filter (fun part => owner part = name) = [] := by
  rw [List.filter_eq_nil_iff]
  intro part hpart
  obtain ⟨item, hitem, hmem⟩ := List.mem_flatMap.mp hpart
  rw [decide_eq_true_iff]
  intro hname
  rw [← hname, owned item hitem part hmem] at absent
  exact absent (List.mem_map_of_mem hitem)

theorem filter_flatMap_owner (distinct : (items.map Prod.fst).Nodup)
    (owned : ∀ item ∈ items, ∀ part ∈ parts item, owner part = item.1)
    {item : String × β} (hitem : item ∈ items) :
    (items.flatMap parts).filter (fun part => owner part = item.1) =
      parts item := by
  induction items with
  | nil => cases hitem
  | cons head rest ih =>
      rw [List.map_cons, List.nodup_cons] at distinct
      have hrest : ∀ item ∈ rest, ∀ part ∈ parts item, owner part = item.1 :=
        fun item hmem => owned item (List.mem_cons_of_mem _ hmem)
      rw [List.flatMap_cons, List.filter_append]
      rcases List.mem_cons.mp hitem with hhead | hmem
      · subst hhead
        rw [filter_flatMap_absent hrest distinct.1, List.append_nil,
          List.filter_eq_self]
        intro part hpart
        rw [decide_eq_true_iff]
        exact owned item List.mem_cons_self part hpart
      · have hother : (parts head).filter (fun part => owner part = item.1) =
            [] := by
          rw [List.filter_eq_nil_iff]
          intro part hpart
          rw [decide_eq_true_iff, owned head List.mem_cons_self part hpart]
          intro hsame
          exact distinct.1 (hsame ▸ List.mem_map_of_mem hmem)
        rw [hother, List.nil_append]
        exact ih distinct.2 hrest hmem

end Owners

theorem advert_unique {reply : Reply} {first second : Option Advert}
    (hfirst : Advertises reply first) (hsecond : Advertises reply second) :
    first = second := by
  cases first with
  | none =>
      cases second with
      | none => rfl
      | some second =>
          obtain ⟨details, hdetails, _⟩ := details_of_advertises hsecond
          rw [details_of_failed hfirst] at hdetails
          cases hdetails
  | some first =>
      obtain ⟨details, hdetails, hservice⟩ := details_of_advertises hfirst
      cases second with
      | none =>
          rw [details_of_failed hsecond] at hdetails
          cases hdetails
      | some second =>
          obtain ⟨other, hother, hsame⟩ := details_of_advertises hsecond
          rw [hdetails, Option.some.injEq] at hother
          rw [← hother, hservice] at hsame
          simp only [Option.some.injEq, ServiceDetail.mk.injEq,
            JsValue.str.injEq] at hsame
          have hpeppers : first.peppers = second.peppers :=
            List.map_injective_iff.mpr (fun _ _ h => JsValue.str.inj h) hsame.2
          rw [Option.some.injEq]
          exact congrArg₂ Advert.mk hsame.1 hpeppers

/-- What the pushes to a kept service are, if they do not throw. -/
def postsTo (hash : HashClass) (usersData : UpdatableFields)
    (entry : String × HashDetails) : List LookupsDetail :=
  (pushes hash usersData entry).getD []

theorem job_of_pushes (hash : HashClass) (usersData : UpdatableFields)
    (host : String) {services : List (String × Reply)}
    (consistent : Consistent (kept services))
    (computed : ∀ entry ∈ kept services,
      (pushes hash usersData entry).isSome) :
    updateFederatedIdentityHashes hash (some usersData) (some host) services =
      some ((kept services).flatMap (postsTo hash usersData)) := by
  have hposts : ∀ entry ∈ kept services, pushes hash usersData entry =
      some (postsTo hash usersData entry) := by
    intro entry hentry
    obtain ⟨posts, hposts⟩ :=
      Option.isSome_iff_exists.mp (computed entry hentry)
    rw [postsTo, hposts]
    rfl
  rw [job_eq hash (some usersData) (some host) consistent, Option.bind_some,
    Option.bind_some, mapM_eq_some_map hposts]
  rfl

theorem uid_of_mem_filter {conf : Config} {rows : List UserRow}
    {entries : Option (List String)} {row : UserRow}
    (h : row ∈ filter conf rows entries) :
    ∃ listed ∈ rows, listed.uid = row.uid := by
  unfold filter at h
  dsimp only at h
  split at h
  · split at h
    · cases h
    · exact ⟨row, h, rfl⟩
  · split at h
    · obtain ⟨before, hbefore, rfl⟩ := List.mem_map.mp h
      exact ⟨before, (List.mem_filter.mp hbefore).1, rfl⟩
    · obtain ⟨before, hbefore, rfl⟩ := List.mem_map.mp h
      refine ⟨before, hbefore, ?_⟩
      split
      · rfl
      · rfl

theorem usersData_filter_ok {conf : Config} {rows : List UserRow}
    (entries : Option (List String))
    (valid : ∀ row ∈ rows, ValidUid conf row) :
    ∃ data, usersData conf (filter conf rows entries) = .ok data := by
  rw [usersData_ok_iff]
  intro row hrow
  obtain ⟨before, hbefore, huid⟩ := uid_of_mem_filter hrow
  obtain ⟨mxid, hmxid⟩ := valid before hbefore
  exact ⟨mxid, huid ▸ hmxid⟩

def sampleHash : HashClass where
  env := .offline sampleSha256
  sha512 := fun text => text
  self := .obj []

def detailsReply (algorithm pepper alternative : String) : Reply :=
  .body (.obj [("algorithms", .strings [algorithm]),
    ("lookup_pepper", .str pepper),
    ("alt_lookup_peppers", .strings [alternative])])

theorem advertises_detailsReply (algorithm pepper alternative : String) :
    Advertises (detailsReply algorithm pepper alternative)
      (some ⟨algorithm, [pepper, alternative]⟩) :=
  @Advertises.details _ algorithm pepper [] [alternative] rfl rfl rfl (.inr rfl)

def sampleServices : List (String × Reply) :=
  [("down.example.org", .rejected),
    ("id.example.org", detailsReply "sha256" "matrixrocks" "old")]

/-- The hashes for a service with these details can be computed: the other
peppers are iterable and, when there is an address to hash, the algorithm names
a member that can be called and the peppers have texts. -/
def Harmless (hash : HashClass) (usersData : UpdatableFields)
    (details : HashDetails) : Prop :=
  ∃ others, spread details.altLookupPeppers = some others ∧
    (hashedValues usersData ≠ [] →
      (∃ member, templateText (firstAlgorithm details.algorithms) =
        some member ∧ (hash.call member "").isSome) ∧
      ∀ pepper ∈ details.lookupPepper :: others, (templateText pepper).isSome)

/-- Each service that advertises an algorithm of the hash class receives all of
its pushes, whatever the others reply. -/
def Isolated (hash : HashClass) (usersData : UpdatableFields) (host : String)
    (services : List (String × Reply)) : Prop :=
  ∀ service ∈ services, ∀ advert, Advertises service.2 (some advert) →
    (hash.digest advert.algorithm).isSome →
    ∃ posts, updateFederatedIdentityHashes hash (some usersData) (some host)
        services = some posts ∧
      ∀ post ∈ expectedPosts hash usersData service.1 (some advert),
        post ∈ posts

section Throwing

variable (hash : HashClass) (usersData : UpdatableFields)

theorem call_isSome (member text : String) :
    (hash.call member text).isSome = (hash.call member "").isSome := by
  unfold HashClass.call
  split
  all_goals rfl

theorem hashValue_isSome_iff (algorithm pepper : JsValue)
    (entry : String × String) :
    (hashValue hash algorithm pepper entry).isSome ↔
      (∃ member, templateText algorithm = some member ∧
        (hash.call member "").isSome) ∧ (templateText pepper).isSome := by
  unfold hashValue
  cases templateText algorithm with
  | none => simp
  | some member =>
      cases templateText pepper with
      | none => simp
      | some text =>
          simp only [Option.bind_some, call_isSome hash member (hashedText _ _ _),
            Option.some.injEq, exists_eq_left', Option.isSome_some, and_true]

theorem usersHashes_isSome_iff (algorithm pepper : JsValue) :
    (usersHashes hash usersData algorithm pepper).isSome ↔
      (hashedValues usersData ≠ [] →
        (∃ member, templateText algorithm = some member ∧
          (hash.call member "").isSome) ∧ (templateText pepper).isSome) := by
  rw [usersHashes, mapM_isSome_iff]
  constructor
  · intro hall hnonempty
    obtain ⟨entry, hentry⟩ := List.exists_mem_of_ne_nil _ hnonempty
    exact (hashValue_isSome_iff hash algorithm pepper entry).mp
      (hall entry hentry)
  · intro h entry hentry
    exact (hashValue_isSome_iff hash algorithm pepper entry).mpr
      (h (List.ne_nil_of_mem hentry))

/-- The pushes to a service are computed exactly when its details are
harmless. -/
theorem pushes_isSome_iff (entry : String × HashDetails) :
    (pushes hash usersData entry).isSome ↔
      Harmless hash usersData entry.2 := by
  unfold pushes serviceDetail Harmless
  cases spread entry.2.altLookupPeppers with
  | none => simp
  | some others =>
      simp only [Option.map_some, Option.bind_some, pushesTo, mapM_isSome_iff,
        Option.isSome_map, usersHashes_isSome_iff, Option.some.injEq,
        exists_eq_left']
      constructor
      · intro h hnonempty
        exact ⟨(h _ List.mem_cons_self hnonempty).1,
          fun pepper hpepper => (h pepper hpepper hnonempty).2⟩
      · intro h pepper hpepper hnonempty
        exact ⟨(h hnonempty).1, (h hnonempty).2 pepper hpepper⟩

end Throwing

section Isolation

variable (hash : HashClass) (usersData : UpdatableFields) (host : String)
variable {addresses : List String} {reply : String → Reply}

theorem consistent_of_reply :
    Consistent (kept (addresses.map fun address => (address, reply address))) := by
  have hreply : ∀ entry ∈ kept (addresses.map fun address =>
      (address, reply address)), (reply entry.1).details = some entry.2 := by
    rintro ⟨address, details⟩ hentry
    obtain ⟨found, hfound, hdetails⟩ := mem_kept.mp hentry
    obtain ⟨other, _, hpair⟩ := List.mem_map.mp hfound
    cases hpair
    exact hdetails
  intro entry hentry other hother hsame
  have hdetails := hreply entry hentry
  rw [hsame, hreply other hother] at hdetails
  exact (Option.some.inj hdetails).symm

theorem computed_iff :
    (∀ entry ∈ kept (addresses.map fun address => (address, reply address)),
        (pushes hash usersData entry).isSome) ↔
      ∀ address ∈ addresses, ∀ details,
        (reply address).details = some details →
          Harmless hash usersData details := by
  constructor
  · intro h address haddress details hdetails
    exact (pushes_isSome_iff hash usersData (address, details)).mp
      (h _ (mem_kept.mpr ⟨reply address,
        List.mem_map_of_mem haddress, hdetails⟩))
  · rintro h ⟨address, details⟩ hentry
    obtain ⟨found, hfound, hdetails⟩ := mem_kept.mp hentry
    obtain ⟨other, hother, hpair⟩ := List.mem_map.mp hfound
    cases hpair
    exact (pushes_isSome_iff hash usersData (address, details)).mpr
      (h address hother details hdetails)

/-- The pushes of the services with an algorithm of the hash class go out
exactly when there is no such service, or when the details of every service
that replied are harmless. -/
theorem isolated_iff :
    Isolated hash usersData host
        (addresses.map fun address => (address, reply address)) ↔
      (∀ address ∈ addresses, ∀ advert,
        Advertises (reply address) (some advert) →
          hash.digest advert.algorithm = none) ∨
      ∀ address ∈ addresses, ∀ details,
        (reply address).details = some details →
          Harmless hash usersData details := by
  rw [← computed_iff hash usersData]
  constructor
  · intro isolated
    by_cases hpromise : ∀ address ∈ addresses, ∀ advert,
        Advertises (reply address) (some advert) →
          hash.digest advert.algorithm = none
    · exact .inl hpromise
    · refine .inr ?_
      push Not at hpromise
      obtain ⟨address, haddress, advert, hadvert, hsupported⟩ := hpromise
      obtain ⟨posts, hposts, _⟩ := isolated _ (List.mem_map_of_mem haddress)
        advert hadvert (Option.ne_none_iff_isSome.mp hsupported)
      rw [job_eq hash (some usersData) (some host) consistent_of_reply,
        Option.bind_some, Option.bind_some] at hposts
      apply mapM_isSome_iff.mp
      obtain ⟨requests, hrequests, _⟩ := Option.map_eq_some_iff.mp hposts
      rw [hrequests]
      rfl
  · rintro (hnone | hcomputed) service hservice advert hadvert hsupported
    · obtain ⟨address, haddress, rfl⟩ := List.mem_map.mp hservice
      rw [hnone address haddress advert hadvert] at hsupported
      cases hsupported
    · refine ⟨_, job_of_pushes hash usersData host consistent_of_reply
        hcomputed, ?_⟩
      intro post hpost
      obtain ⟨details, hdetails, hpushes⟩ := pushes_of_advertises hash
        usersData hadvert service.1 hsupported
      have hentry : (service.1, details) ∈ kept (addresses.map fun address =>
          (address, reply address)) :=
        mem_kept.mpr ⟨service.2, hservice, hdetails⟩
      refine List.mem_flatMap.mpr ⟨_, hentry, ?_⟩
      rw [postsTo, hpushes]
      exact hpost

end Isolation

/-- One service with an unsupported algorithm and one that works. -/
def mixedReply (address : String) : Reply :=
  if address = "legacy.example.org" then detailsReply "md5" "salt" "old"
  else detailsReply "sha256" "matrixrocks" "old"

theorem unsupported_algorithm_stops_job :
    ¬ Isolated sampleHash
      [("@alice:example.org",
        { active := some 1, email := some "alice@example.com",
          phone := none })]
      "example.org:443"
      (["legacy.example.org", "id.example.org"].map fun address =>
        (address, mixedReply address)) := by
  intro isolated
  obtain ⟨posts, hposts, _⟩ := isolated
    ("id.example.org", mixedReply "id.example.org")
    (List.mem_map_of_mem (by decide)) _ (advertises_detailsReply _ _ _) rfl
  cases hposts

end TwakeKickstart.IdentityServer
