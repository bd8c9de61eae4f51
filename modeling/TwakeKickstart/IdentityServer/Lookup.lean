import Mathlib.Data.List.Induction
import TwakeKickstart.IdentityServer.Authenticate

namespace TwakeKickstart.IdentityServer

open Library Utils

/-! `POST /lookup`: from hashed addresses to Matrix ids. -/

def lookupSchema : List (String × Bool) :=
  [("addresses", true), ("algorithm", false), ("pepper", false)]

-- Strings only; `none` stands for everything else.
def stringItems : List JsValue → Option (List String)
  | [] => some []
  | .str s :: rest => (stringItems rest).map (s :: ·)
  | _ => none

/-- The check on `addresses`, with the addresses when it succeeds. -/
def acceptedAddresses (conf : Config) (addresses : JsValue) :
    Option (List String) :=
  match addresses with
  | .arr items =>
      (stringItems items).filter fun strings =>
        decide (strings.length ≤ conf.hashesRateLimit)
  | _ => none

def collectMapping (collected : JsObject × JsObject) (row : HashRow) :
    JsObject × JsObject :=
  if row.active = some 1 then
    (collected.1.assign row.hash (.str row.value), collected.2)
  else (collected.1, collected.2.assign row.hash (.str row.value))

def lookupBody (conf : Config) (rows : List HashRow) : JsValue :=
  let (mappings, inactives) := rows.foldl collectMapping ([], [])
  if conf.additionalFeatures then
    .obj [("mappings", .obj mappings), ("inactive_mappings", .obj inactives)]
  else .obj [("mappings", .obj mappings)]

def onHashRows (conf : Config) : Option (List HashRow) → Procedure
  | none => reply 500 (errMsg .unknown errorObject)
  | some rows => reply 200 (lookupBody conf rows)

def onLookup (conf : Config) (content : JsValue) : Procedure :=
  match acceptedAddresses conf (field content "addresses") with
  | none => reply 400 (errMsg .invalidParam)
  | some addresses =>
      .perform (.db (.get .hashes ["value", "hash", "active"]
        [("hash", .strings addresses)])) (onHashRows conf)

def lookup (conf : Config) (req : Request) : Procedure :=
  Authenticate (fun _ _ =>
    jsonContent req fun content =>
      validateParameters lookupSchema content (onLookup conf content)) true req

/-! The objects that the reply is built from. -/

def assignAll (rows : List HashRow) : JsObject :=
  rows.foldl (fun object row => object.assign row.hash (.str row.value)) []

theorem foldl_collectMapping (rows : List HashRow)
    (collected : JsObject × JsObject) :
    rows.foldl collectMapping collected =
      ((rows.filter (·.active == some 1)).foldl
          (fun object row => object.assign row.hash (.str row.value))
          collected.1,
        (rows.filter (·.active != some 1)).foldl
          (fun object row => object.assign row.hash (.str row.value))
          collected.2) := by
  induction rows generalizing collected with
  | nil => rfl
  | cons row rest ih =>
      rw [List.foldl_cons, ih]
      by_cases hactive : row.active = some 1
      · simp [collectMapping, hactive]
      · simp [collectMapping, hactive]

def UniqueHashes (rows : List HashRow) : Prop :=
  rows.Pairwise fun row other => row.hash ≠ other.hash

theorem lookup_assignAll {rows : List HashRow} (unique : UniqueHashes rows)
    (name : String) (value : JsValue) :
    (assignAll rows).lookup name = some value ↔
      name ≠ "__proto__" ∧
        ∃ row ∈ rows, row.hash = name ∧ value = .str row.value := by
  induction rows using List.reverseRecOn with
  | nil => simp [assignAll]
  | append_singleton rows last ih =>
      obtain ⟨hrows, _, hlast⟩ := List.pairwise_append.mp unique
      have hstep : assignAll (rows ++ [last]) =
          (assignAll rows).assign last.hash (.str last.value) := by
        simp [assignAll]
      rw [hstep, JsObject.lookup_assign]
      by_cases hname : name = last.hash
      · subst hname
        have hother : ∀ row ∈ rows, row.hash ≠ last.hash :=
          fun row hrow => hlast row hrow last (List.mem_singleton_self last)
        by_cases hproto : last.hash = "__proto__"
        · rw [if_neg (by simp [hproto]), ih hrows]
          simp [hproto]
        · rw [if_pos ⟨rfl, hproto⟩]
          constructor
          · intro hvalue
            refine ⟨hproto, last, by simp, rfl, ?_⟩
            exact (Option.some.inj hvalue).symm
          · rintro ⟨_, row, hrow, hhash, hvalue⟩
            rcases List.mem_append.mp hrow with hrow | hrow
            · exact absurd hhash (hother row hrow)
            · rw [List.mem_singleton.mp hrow] at hvalue
              rw [hvalue]
      · rw [if_neg fun h => hname h.1, ih hrows]
        apply and_congr_right
        intro _
        simp only [List.mem_append, List.mem_singleton]
        constructor
        · rintro ⟨row, hrow, hrest⟩
          exact ⟨row, .inl hrow, hrest⟩
        · rintro ⟨row, hrow | rfl, hhash, hvalue⟩
          · exact ⟨row, hrow, hhash, hvalue⟩
          · exact absurd hhash.symm hname

/-! The rows that a list of addresses selects. -/

/-- The filter builder drops a list without any text. -/
def droppedAddresses (addresses : List String) : Prop :=
  addresses = [] ∨ addresses = [""]

def selectHashes (rows : List HashRow) (addresses : List String) :
    List HashRow :=
  if ",".intercalate addresses = "" then rows
  else rows.filter (·.hash ∈ addresses)

theorem resolve_addresses (rows : List (Row .hashes)) (addresses : List String) :
    (Filter.resolve [("hash", .strings addresses)]).map (fun resolved =>
        rows.filter fun row => selectsAll .eq resolved (cell .hashes row)) =
      some (selectHashes rows addresses) := by
  have htext := JsValue.text?_strings addresses
  have hbound : boundTexts (.strings addresses) = some addresses :=
    texts?_str addresses
  rw [resolve_single (isNullish_of_text? htext), htext, hbound, selectHashes]
  by_cases hempty : ",".intercalate addresses = ""
  · simp [hempty, selectsAll]
  · simp only [Option.bind_some, hempty, if_false, Option.map_some]
    congr 2
    funext row
    rw [Bool.eq_iff_iff]
    simp [selectsAll, cell]

theorem mem_selectHashes {rows : List HashRow} {addresses : List String}
    {row : HashRow} :
    row ∈ selectHashes rows addresses ↔
      row ∈ rows ∧ (droppedAddresses addresses ∨ row.hash ∈ addresses) := by
  unfold selectHashes droppedAddresses
  rw [← JsValue.intercalate_eq_empty_iff]
  split
  · rename_i hempty
    simp [hempty]
  · rename_i hempty
    simp [hempty]

theorem uniqueHashes_filter {rows : List HashRow} (unique : UniqueHashes rows)
    (keep : HashRow → Bool) : UniqueHashes (rows.filter keep) :=
  List.Pairwise.filter keep unique

theorem uniqueHashes_select {rows : List HashRow} (unique : UniqueHashes rows)
    (addresses : List String) :
    UniqueHashes (selectHashes rows addresses) := by
  unfold selectHashes
  split
  · exact unique
  · exact uniqueHashes_filter unique _

/-! Exactness of one object of the reply, and of the reply. -/

/-- The object maps exactly the sent hashes that have a row. -/
def Exact (object : JsObject) (rows : List HashRow)
    (addresses : List String) : Prop :=
  ∀ name value, object.lookup name = some value ↔
    name ∈ addresses ∧ ∃ row ∈ rows, row.hash = name ∧ value = .str row.value

/-- A dropped list is harmless when every row was asked for anyway.  The key
`__proto__` never becomes a field. -/
structure Answerable (rows : List HashRow) (addresses : List String) :
    Prop where
  dropped : droppedAddresses addresses →
    ∀ row ∈ rows, row.hash ∈ addresses ∨ row.hash = "__proto__"
  proto : ∀ row ∈ rows, row.hash = "__proto__" → "__proto__" ∉ addresses

theorem exact_iff {rows : List HashRow} (unique : UniqueHashes rows)
    (addresses : List String) :
    Exact (assignAll (selectHashes rows addresses)) rows addresses ↔
      Answerable rows addresses := by
  have hlookup := lookup_assignAll (uniqueHashes_select unique addresses)
  constructor
  · intro hexact
    refine ⟨?_, ?_⟩
    · intro hdropped row hrow
      by_cases hproto : row.hash = "__proto__"
      · exact .inr hproto
      · have hfound := (hlookup row.hash (.str row.value)).mpr
          ⟨hproto, row, mem_selectHashes.mpr ⟨hrow, .inl hdropped⟩, rfl, rfl⟩
        exact .inl ((hexact _ _).mp hfound).1
    · intro row hrow hproto hmem
      have hfound := (hexact "__proto__" (.str row.value)).mpr
        ⟨hmem, row, hrow, hproto, rfl⟩
      exact ((hlookup _ _).mp hfound).1 rfl
  · intro hanswerable name value
    rw [hlookup]
    constructor
    · rintro ⟨hproto, row, hrow, rfl, rfl⟩
      obtain ⟨hmem, hselected⟩ := mem_selectHashes.mp hrow
      refine ⟨?_, row, hmem, rfl, rfl⟩
      rcases hselected with hdropped | hsent
      · exact (hanswerable.dropped hdropped row hmem).resolve_right hproto
      · exact hsent
    · rintro ⟨hsent, row, hrow, rfl, rfl⟩
      refine ⟨?_, row, mem_selectHashes.mpr ⟨hrow, .inr hsent⟩, rfl, rfl⟩
      intro hproto
      exact hanswerable.proto row hrow hproto (hproto ▸ hsent)

def activeRows (rows : List HashRow) : List HashRow :=
  rows.filter (·.active == some 1)

def inactiveRows (rows : List HashRow) : List HashRow :=
  rows.filter (·.active != some 1)

def ExactBody (conf : Config) (rows : List HashRow)
    (addresses : List String) (body : JsValue) : Prop :=
  ∃ mappings, Exact mappings (activeRows rows) addresses ∧
    if conf.additionalFeatures then
      ∃ inactives, Exact inactives (inactiveRows rows) addresses ∧
        body = .obj [("mappings", .obj mappings),
          ("inactive_mappings", .obj inactives)]
    else body = .obj [("mappings", .obj mappings)]

theorem filter_selectHashes (rows : List HashRow) (addresses : List String)
    (keep : HashRow → Bool) :
    (selectHashes rows addresses).filter keep =
      selectHashes (rows.filter keep) addresses := by
  unfold selectHashes
  split
  · rfl
  · rw [List.filter_filter, List.filter_filter]
    congr 1
    funext row
    exact Bool.and_comm _ _

theorem lookupBody_select (conf : Config) (rows : List HashRow)
    (addresses : List String) :
    lookupBody conf (selectHashes rows addresses) =
      let mappings := assignAll (selectHashes (activeRows rows) addresses)
      let inactives := assignAll (selectHashes (inactiveRows rows) addresses)
      if conf.additionalFeatures then
        .obj [("mappings", .obj mappings),
          ("inactive_mappings", .obj inactives)]
      else .obj [("mappings", .obj mappings)] := by
  unfold lookupBody
  rw [foldl_collectMapping, filter_selectHashes, filter_selectHashes]
  rfl

theorem exactBody_iff (conf : Config) {rows : List HashRow}
    (unique : UniqueHashes rows) (addresses : List String) :
    ExactBody conf rows addresses
        (lookupBody conf (selectHashes rows addresses)) ↔
      Answerable (activeRows rows) addresses ∧
      (conf.additionalFeatures = true →
        Answerable (inactiveRows rows) addresses) := by
  have hactive := exact_iff (uniqueHashes_filter unique (·.active == some 1))
    addresses
  have hinactive := exact_iff (uniqueHashes_filter unique (·.active != some 1))
    addresses
  rw [lookupBody_select, ExactBody]
  cases conf.additionalFeatures with
  | true =>
      simp only [if_true, true_implies]
      constructor
      · rintro ⟨mappings, hmappings, inactives, hinactives, hbody⟩
        simp only [JsValue.obj.injEq, List.cons.injEq, Prod.mk.injEq, true_and,
          and_true] at hbody
        obtain ⟨rfl, rfl⟩ := hbody
        exact ⟨hactive.mp hmappings, hinactive.mp hinactives⟩
      · rintro ⟨hmappings, hinactives⟩
        exact ⟨_, hactive.mpr hmappings, _, hinactive.mpr hinactives, rfl⟩
  | false =>
      simp only [Bool.false_eq_true, if_false, false_implies, and_true]
      constructor
      · rintro ⟨mappings, hmappings, hbody⟩
        simp only [JsValue.obj.injEq, List.cons.injEq, Prod.mk.injEq, true_and,
          and_true] at hbody
        subst hbody
        exact hactive.mp hmappings
      · intro hmappings
        exact ⟨_, hactive.mpr hmappings, rfl⟩

/-! The reply to a request that is authenticated and whose body is taken. -/

structure LookupRequest (conf : Config) (store : Store) (req : Request)
    (addresses : List String) : Prop where
  authenticated : ∃ data,
    identify store (presentedToken req) true = .ok data
  accepted : (acceptedBody lookupSchema req).bind
    (fun content => acceptedAddresses conf (field content "addresses")) =
      some addresses

def LookupExact (env : Environment) (conf : Config) (now : Nat)
    (store : Store) (req : Request) (addresses : List String) : Prop :=
  ∃ body, ExactBody conf (store .hashes) addresses body ∧
    (serve env now (lookup conf req) { store }).sent = [(200, body)]

theorem sent_lookup_received (env : Environment) (now : Nat) (conf : Config)
    (store : Store) (req : Request) :
    (serve env now (lookup conf req) { store }).sent =
      match received lookupSchema store req with
      | .error sent => sent
      | .ok content =>
          match acceptedAddresses conf (field content "addresses") with
          | none => [(400, errMsg .invalidParam)]
          | some addresses => [(200,
              lookupBody conf (selectHashes (store .hashes) addresses))] := by
  rw [lookup, serve_received]
  cases received lookupSchema store req with
  | error sent => rfl
  | ok content =>
      dsimp only
      unfold onLookup
      cases acceptedAddresses conf (field content "addresses") with
      | none => rfl
      | some addresses =>
          dsimp only
          rw [serve_get]
          have hrows := resolve_addresses (store .hashes) addresses
          exact congrArg (fun rows =>
            (serve env now (onHashRows conf rows) { store }).sent) hrows

theorem sent_lookup (env : Environment) (now : Nat) {conf : Config}
    {store : Store} {req : Request} {addresses : List String}
    (taken : LookupRequest conf store req addresses) :
    (serve env now (lookup conf req) { store }).sent =
      [(200, lookupBody conf (selectHashes (store .hashes) addresses))] := by
  obtain ⟨⟨data, hidentify⟩, haccepted⟩ := taken
  obtain ⟨content, hbody, haddresses⟩ := Option.bind_eq_some_iff.mp haccepted
  rw [sent_lookup_received, received_of_accepted hidentify hbody]
  dsimp only
  rw [haddresses]

/-- The reply is exact unless the filter builder drops the addresses, or a
hash is the one text that cannot be a field. -/
theorem lookup_exact_iff (env : Environment) (now : Nat) {conf : Config}
    {store : Store} {req : Request} {addresses : List String}
    (taken : LookupRequest conf store req addresses)
    (unique : UniqueHashes (store .hashes)) :
    LookupExact env conf now store req addresses ↔
      Answerable (activeRows (store .hashes)) addresses ∧
      (conf.additionalFeatures = true →
        Answerable (inactiveRows (store .hashes)) addresses) := by
  rw [← exactBody_iff conf unique addresses]
  unfold LookupExact
  rw [sent_lookup env now taken]
  constructor
  · rintro ⟨body, hexact, hsent⟩
    simp only [List.cons.injEq, Prod.mk.injEq, true_and, and_true] at hsent
    rw [hsent]
    exact hexact
  · intro hexact
    exact ⟨_, hexact, rfl⟩

def directoryStore : Store :=
  Function.update (Function.update emptyStore .accessTokens
    [{ id := "b0b", data := some (.obj [("sub", .str "@bob:example.org")]) }])
    .hashes
    [{ hash := "h-alice", pepper := "p", type := "email",
       value := "@alice:example.org", active := some 1 },
     { hash := "h-carol", pepper := "p", type := "msisdn",
       value := "@carol:example.org", active := some 1 }]

def lookupRequest (addresses : List String) : Request where
  authorization := some "Bearer b0b"
  body := some (.obj [("addresses", .strings addresses)])

theorem lookup_exact_carol :
    LookupExact (.offline id) .sample 0 directoryStore
      (lookupRequest ["h-carol", ""]) ["h-carol", ""] := by
  have taken : LookupRequest .sample directoryStore
      (lookupRequest ["h-carol", ""]) ["h-carol", ""] :=
    ⟨⟨_, rfl⟩, rfl⟩
  have unique : UniqueHashes (directoryStore .hashes) := by
    unfold UniqueHashes
    decide
  apply (lookup_exact_iff (.offline id) 0 taken unique).mpr
  refine ⟨⟨?_, ?_⟩, ?_⟩
  · rintro (hempty | hempty)
    · simp at hempty
    · simp at hempty
  · decide
  · intro hfeatures
    cases hfeatures

/-- An empty list of addresses returns the whole directory. -/
theorem lookup_empty_discloses :
    ¬ LookupExact (.offline id) .sample 0 directoryStore
      (lookupRequest []) [] := by
  rintro ⟨body, ⟨mappings, hexact, hbody⟩, hsent⟩
  have taken : LookupRequest .sample directoryStore (lookupRequest []) [] :=
    ⟨⟨_, rfl⟩, rfl⟩
  rw [sent_lookup (.offline id) 0 taken] at hsent
  simp only [List.cons.injEq, Prod.mk.injEq, true_and, and_true] at hsent
  have hmappings : mappings = [("h-alice", .str "@alice:example.org"),
      ("h-carol", .str "@carol:example.org")] := by
    have hobject := hsent.trans hbody
    cases hobject
    rfl
  have hfound := (hexact "h-alice" (.str "@alice:example.org")).mp (by
    rw [hmappings]
    rfl)
  cases hfound.1

end TwakeKickstart.IdentityServer
