import Mathlib.Data.List.Nodup
import TwakeKickstart.IdentityServer.Lookup
import TwakeKickstart.FederatedIdentityService.Validation

namespace TwakeKickstart.FederatedIdentityService

open Library Utils IdentityServer

/-! `POST /lookup` of the federated identity service. -/

section Grouping

variable {Key Item : Type} [DecidableEq Key]

def addToGroup (key : Key) (item : Item) :
    List (Key × List Item) → List (Key × List Item)
  | [] => [(key, [item])]
  | (other, items) :: rest =>
      if other = key then (other, items ++ [item]) :: rest
      else (other, items) :: addToGroup key item rest

def groupBy (key : Item → Key) (items : List Item) :
    List (Key × List Item) :=
  items.foldl (fun groups item => addToGroup (key item) item groups) []

theorem mem_flatMap_addToGroup (key : Key) (item other : Item)
    (groups : List (Key × List Item)) :
    other ∈ (addToGroup key item groups).flatMap Prod.snd ↔
      other = item ∨ other ∈ groups.flatMap Prod.snd := by
  induction groups with
  | nil => simp [addToGroup]
  | cons group rest ih =>
      obtain ⟨name, items⟩ := group
      unfold addToGroup
      split
      · simp only [List.flatMap_cons, List.mem_append, List.mem_singleton]
        rw [or_comm (a := other ∈ items), or_assoc]
      · simp only [List.flatMap_cons, List.mem_append, ih]
        rw [or_left_comm]

theorem mem_flatMap_groupBy (key : Item → Key) (items : List Item)
    (item : Item) :
    item ∈ (groupBy key items).flatMap Prod.snd ↔ item ∈ items := by
  induction items using List.reverseRecOn with
  | nil => simp [groupBy]
  | append_singleton items last ih =>
      have hstep : groupBy key (items ++ [last]) =
          addToGroup (key last) last (groupBy key items) := by
        simp [groupBy]
      rw [hstep, mem_flatMap_addToGroup, ih, List.mem_append,
        List.mem_singleton, or_comm]

end Grouping

def thirdPartyMappings (rows : List ServerHash) : JsObject :=
  (groupBy ServerHash.server rows).map fun (server, items) =>
    (server, .strings (items.map ServerHash.hash))

-- The inactive hashes are concatenated to a list that nothing keeps.
def allMatchingHashes (mappings : JsObject) : List String :=
  mappings.map Prod.fst

def lookupBody (conf : Config) (mappings inactives : JsObject)
    (rows : List ServerHash) : JsValue :=
  let thirdParty := JsValue.obj (thirdPartyMappings rows)
  if conf.additionalFeatures then
    .obj [("mappings", .obj mappings), ("third_party_mappings", thirdParty),
      ("inactive_mappings", .obj inactives)]
  else
    .obj [("mappings", .obj mappings), ("third_party_mappings", thirdParty)]

def onServerRows (conf : Config) (mappings inactives : JsObject) :
    Except String (List ServerHash) → FdProcedure
  | .error message => replyError 500 .unknown message
  | .ok rows => reply 200 (lookupBody conf mappings inactives rows)

def askOtherServers (conf : Config) (mappings inactives : JsObject)
    (thirdPartyHashes : List String) : FdProcedure :=
  if thirdPartyHashes.isEmpty then onServerRows conf mappings inactives (.ok [])
  else
    .perform (.db (.getHashByServer ["hash", "server"]
      [("hash", .strings thirdPartyHashes)]))
      (onServerRows conf mappings inactives)

def onHashRows (conf : Config) (addresses : List String) :
    Except String (List HashRow) → FdProcedure
  | .error message => replyError 500 .unknown message
  | .ok rows =>
      let (mappings, inactives) := rows.foldl collectMapping ([], [])
      askOtherServers conf mappings inactives
        (addresses.filter (· ∉ allMatchingHashes mappings))

def lookupValidators (conf : Config) : List ValidationChain :=
  commonValidators ++ [lookupValidator conf.hashesRateLimit]

def lookup (conf : Config) (body : JsValue) : FdProcedure :=
  validationErrorHandler (lookupValidators conf) body
    (.perform (.db (.get .hashes ["value", "hash", "active"]
      [("hash", property body "addresses")]))
      (onHashRows conf
        ((stringArray? (property body "addresses")).getD [])))

/-! What a body that passes the validators holds. -/

theorem mapM_stringItem {items : List JsValue}
    (h : ∀ item ∈ items, (stringItem? item).isSome = true) :
    ∃ texts, items = texts.map .str ∧
      items.mapM stringItem? = some texts := by
  induction items with
  | nil => exact ⟨[], rfl, rfl⟩
  | cons item rest ih =>
      obtain ⟨texts, hrest, hmapM⟩ := ih fun other hother =>
        h other (List.mem_cons_of_mem _ hother)
      have hitem := h item List.mem_cons_self
      cases item with
      | str text =>
          refine ⟨text :: texts, ?_, ?_⟩
          · rw [hrest]
            rfl
          · rw [List.mapM_cons, hmapM]
            rfl
      | undefined => cases hitem
      | null => cases hitem
      | bool b => cases hitem
      | num n => cases hitem
      | arr items => cases hitem
      | obj fields => cases hitem

theorem checkAddresses_none {limit : Nat} {value : JsValue}
    (h : checkAddresses limit value = none) :
    ∃ addresses, value = .strings addresses ∧
      stringArray? value = some addresses ∧ addresses.length ≤ limit := by
  unfold checkAddresses at h
  split at h
  · rename_i items
    split at h
    · cases h
    · rename_i hstrings
      split at h
      · cases h
      · rename_i hlimit
        have hall : ∀ item ∈ items, (stringItem? item).isSome = true := by
          intro item hitem
          cases hsome : stringItem? item with
          | some text => rfl
          | none =>
              exact absurd (List.any_eq_true.mpr ⟨item, hitem, by
                rw [hsome]
                rfl⟩) hstrings
        obtain ⟨texts, hitems, hmapM⟩ := mapM_stringItem hall
        refine ⟨texts, by rw [hitems]; rfl, hmapM, ?_⟩
        rw [hitems, List.length_map] at hlimit
        exact Nat.le_of_not_lt hlimit
  · cases h

theorem lookup_accepted {conf : Config} {body : JsValue}
    (valid : Valid (lookupValidators conf) body) :
    ∃ addresses, property body "addresses" = .strings addresses ∧
      stringArray? (property body "addresses") = some addresses ∧
      addresses.length ≤ conf.hashesRateLimit := by
  have hcheck := valid (lookupValidator conf.hashesRateLimit) (by
    simp [lookupValidators]) (checkAddresses conf.hashesRateLimit) (by
    simp [lookupValidator])
  exact checkAddresses_none hcheck

/-! The rows of other servers that a list of hashes selects. -/

def selectServerHashes (rows : List ServerHash) (hashes : List String) :
    List ServerHash :=
  if ",".intercalate hashes = "" then rows
  else rows.filter (·.hash ∈ hashes)

theorem resolve_hashes (rows : List ServerHash) (hashes : List String) :
    (Filter.resolve [("hash", .strings hashes)]).map (fun resolved =>
        rows.filter fun row => selectsAll .eq resolved row.cell) =
      some (selectServerHashes rows hashes) := by
  have htext := JsValue.text?_strings hashes
  have hbound : boundTexts (.strings hashes) = some hashes :=
    texts?_str hashes
  rw [resolve_single (isNullish_of_text? htext), htext, hbound,
    selectServerHashes]
  by_cases hempty : ",".intercalate hashes = ""
  · simp [hempty, selectsAll]
  · simp only [Option.bind_some, hempty, if_false, Option.map_some]
    congr 2
    funext row
    rw [Bool.eq_iff_iff]
    simp [selectsAll, ServerHash.cell]

theorem mem_selectServerHashes {rows : List ServerHash}
    {hashes : List String} {row : ServerHash} :
    row ∈ selectServerHashes rows hashes ↔
      row ∈ rows ∧ (droppedAddresses hashes ∨ row.hash ∈ hashes) := by
  unfold selectServerHashes droppedAddresses
  rw [← JsValue.intercalate_eq_empty_iff]
  split
  · rename_i hempty
    simp [hempty]
  · rename_i hempty
    simp [hempty]

/-- The rows of `hashByServer` from which the reply is built. -/
def thirdPartyRows (store : FdStore) (unresolved : List String) :
    List ServerHash :=
  if unresolved.isEmpty then []
  else selectServerHashes store.hashByServer unresolved

theorem serve_askOtherServers (env : FdEnvironment) (conf : Config)
    (mappings inactives : JsObject) (hashes : List String)
    (world : FdWorld) :
    serve env (askOtherServers conf mappings inactives hashes) world =
      { world with sent := world.sent ++
          [(200, lookupBody conf mappings inactives
            (thirdPartyRows world.store hashes))] } := by
  unfold askOtherServers thirdPartyRows
  split
  · rfl
  · rw [serve_db, execute_getHashByServer, resolve_hashes]
    rfl

theorem execute_getHashes (env : FdEnvironment) (fields addresses : List String)
    (store : FdStore) :
    FdCall.execute env
        (.get .hashes fields [("hash", .strings addresses)]) store =
      (.ok (selectHashes (store.tables .hashes) addresses), store) := by
  simp only [FdCall.execute]
  rw [execute_get, resolve_addresses]
  rfl

theorem serve_onHashRows (env : FdEnvironment) (conf : Config)
    (addresses : List String) (rows : List HashRow) (store : FdStore) :
    (serve env (onHashRows conf addresses (.ok rows)) { store }).sent =
      [(200, lookupBody conf (assignAll (activeRows rows))
        (assignAll (inactiveRows rows))
        (thirdPartyRows store (addresses.filter
          (· ∉ allMatchingHashes (assignAll (activeRows rows))))))] := by
  simp only [onHashRows]
  rw [foldl_collectMapping, serve_askOtherServers]
  rfl

theorem sent_lookup (env : FdEnvironment) {conf : Config} {body : JsValue}
    {addresses : List String} (store : FdStore)
    (valid : Valid (lookupValidators conf) body)
    (haddresses : stringArray? (property body "addresses") =
      some addresses) :
    (serve env (lookup conf body) { store }).sent =
      (serve env (onHashRows conf addresses
        (.ok (selectHashes (store.tables .hashes) addresses)))
          { store }).sent := by
  obtain ⟨other, hvalue, harray, _⟩ := lookup_accepted valid
  rw [harray] at haddresses
  cases haddresses
  rw [lookup, validationErrorHandler_valid _ valid, harray, hvalue, serve_db,
    execute_getHashes]
  rfl

/-! The three places where the reply can report a hash. -/

def fieldNames (body : JsValue) (key : String) : List String :=
  match property body key with
  | .obj fields => fields.map Prod.fst
  | _ => []

def reportedHashes (body : JsValue) : List String :=
  match property body "third_party_mappings" with
  | .obj groups => groups.flatMap fun group => (stringArray? group.2).getD []
  | _ => []

/-- One requested hash in a reply.  `stored` says that the table `hashes` has
the hash, `pushed` that `hashByServer` has it. -/
structure Placed (body : JsValue) (stored pushed : Prop) (hash : String) :
    Prop where
  local_once : ¬ (hash ∈ fieldNames body "mappings" ∧
    hash ∈ fieldNames body "inactive_mappings")
  not_elsewhere : stored ∨ hash ∈ fieldNames body "mappings" ∨
    hash ∈ fieldNames body "inactive_mappings" → hash ∉ reportedHashes body
  somewhere : stored ∨ pushed → hash ∈ fieldNames body "mappings" ∨
    hash ∈ fieldNames body "inactive_mappings" ∨ hash ∈ reportedHashes body

def Stored (rows : List HashRow) (hash : String) : Prop :=
  ∃ row ∈ rows, row.hash = hash

def Pushed (rows : List ServerHash) (hash : String) : Prop :=
  ∃ row ∈ rows, row.hash = hash

instance (rows : List HashRow) (hash : String) :
    Decidable (Stored rows hash) :=
  inferInstanceAs (Decidable (∃ row ∈ rows, row.hash = hash))

instance (rows : List ServerHash) (hash : String) :
    Decidable (Pushed rows hash) :=
  inferInstanceAs (Decidable (∃ row ∈ rows, row.hash = hash))

theorem mem_fieldNames_assignAll {rows : List HashRow}
    (unique : UniqueHashes rows) (name : String) :
    name ∈ (assignAll rows).map Prod.fst ↔
      name ≠ "__proto__" ∧ Stored rows name := by
  have hlookup := lookup_assignAll unique name
  have hkeys : name ∈ (assignAll rows).map Prod.fst ↔
      ((assignAll rows).lookup name).isSome = true := by
    rw [List.lookup_isSome_iff, List.mem_map]
    constructor
    · rintro ⟨entry, hentry, hname⟩
      exact ⟨entry, hentry, by simp [hname]⟩
    · rintro ⟨entry, hentry, hname⟩
      exact ⟨entry, hentry, (by simpa using hname : name = entry.1).symm⟩
  rw [hkeys, Option.isSome_iff_exists]
  constructor
  · rintro ⟨value, hvalue⟩
    obtain ⟨hproto, row, hrow, hhash, _⟩ := (hlookup value).mp hvalue
    exact ⟨hproto, row, hrow, hhash⟩
  · rintro ⟨hproto, row, hrow, hhash⟩
    exact ⟨_, (hlookup _).mpr ⟨hproto, row, hrow, hhash, rfl⟩⟩

theorem stored_select {rows : List HashRow} {addresses : List String}
    {hash : String} (requested : hash ∈ addresses) :
    Stored (selectHashes rows addresses) hash ↔ Stored rows hash := by
  unfold Stored
  constructor
  · rintro ⟨row, hrow, hhash⟩
    exact ⟨row, (mem_selectHashes.mp hrow).1, hhash⟩
  · rintro ⟨row, hrow, hhash⟩
    exact ⟨row, mem_selectHashes.mpr ⟨hrow, .inr (hhash ▸ requested)⟩, hhash⟩

theorem stored_iff (rows : List HashRow) (hash : String) :
    Stored rows hash ↔
      Stored (activeRows rows) hash ∨ Stored (inactiveRows rows) hash := by
  unfold Stored activeRows inactiveRows
  constructor
  · rintro ⟨row, hrow, hhash⟩
    by_cases hactive : row.active = some 1
    · exact .inl ⟨row, List.mem_filter.mpr ⟨hrow, by simp [hactive]⟩, hhash⟩
    · exact .inr ⟨row, List.mem_filter.mpr ⟨hrow, by simp [hactive]⟩, hhash⟩
  · rintro (⟨row, hrow, hhash⟩ | ⟨row, hrow, hhash⟩)
    · exact ⟨row, List.mem_of_mem_filter hrow, hhash⟩
    · exact ⟨row, List.mem_of_mem_filter hrow, hhash⟩

theorem not_active_and_inactive {rows : List HashRow}
    (unique : UniqueHashes rows) {hash : String} :
    ¬ (Stored (activeRows rows) hash ∧ Stored (inactiveRows rows) hash) := by
  rintro ⟨⟨row, hrow, hhash⟩, other, hother, hsame⟩
  obtain ⟨hmem, hactive⟩ := List.mem_filter.mp hrow
  obtain ⟨hmem', hinactive⟩ := List.mem_filter.mp hother
  have hnodup : (rows.map HashRow.hash).Nodup := List.pairwise_map.mpr unique
  have heq : row = other :=
    List.inj_on_of_nodup_map hnodup hmem hmem' (hhash.trans hsame.symm)
  subst heq
  simp only [beq_iff_eq, bne_iff_ne] at hactive hinactive
  exact hinactive hactive

section Body

variable (conf : Config) (mappings inactives : JsObject)
variable (rows : List ServerHash)

theorem fieldNames_mappings :
    fieldNames (lookupBody conf mappings inactives rows) "mappings" =
      mappings.map Prod.fst := by
  unfold lookupBody
  cases conf.additionalFeatures with
  | true => rfl
  | false => rfl

theorem fieldNames_inactives (features : conf.additionalFeatures = true) :
    fieldNames (lookupBody conf mappings inactives rows)
      "inactive_mappings" = inactives.map Prod.fst := by
  unfold lookupBody
  rw [features]
  rfl

theorem mem_reportedHashes (hash : String) :
    hash ∈ reportedHashes (lookupBody conf mappings inactives rows) ↔
      Pushed rows hash := by
  have hproperty :
      property (lookupBody conf mappings inactives rows)
        "third_party_mappings" = .obj (thirdPartyMappings rows) := by
    unfold lookupBody
    cases conf.additionalFeatures with
    | true => rfl
    | false => rfl
  unfold reportedHashes
  rw [hproperty]
  simp only [thirdPartyMappings, List.flatMap_map, stringArray?_strings,
    Option.getD_some]
  constructor
  · intro hmem
    obtain ⟨group, hgroup, hhash⟩ := List.mem_flatMap.mp hmem
    obtain ⟨row, hrow, hname⟩ := List.mem_map.mp hhash
    exact ⟨row, (mem_flatMap_groupBy ServerHash.server rows row).mp
      (List.mem_flatMap.mpr ⟨group, hgroup, hrow⟩), hname⟩
  · rintro ⟨row, hrow, hname⟩
    obtain ⟨group, hgroup, hmem⟩ := List.mem_flatMap.mp
      ((mem_flatMap_groupBy ServerHash.server rows row).mpr hrow)
    exact List.mem_flatMap.mpr
      ⟨group, hgroup, List.mem_map.mpr ⟨row, hmem, hname⟩⟩

end Body

/-- The requested hashes that the second query asks for. -/
def unresolved (store : FdStore) (addresses : List String) : List String :=
  addresses.filter fun hash =>
    ¬ (hash ≠ "__proto__" ∧ Stored (activeRows (store.tables .hashes)) hash)

/-- No requested hash is known both as an inactive one and to another server,
and neither the filter builder nor the key `__proto__` interferes. -/
structure Separable (store : FdStore) (addresses : List String) : Prop where
  inactive : ∀ hash ∈ addresses,
    Stored (inactiveRows (store.tables .hashes)) hash →
      ¬ Pushed store.hashByServer hash
  dropped : unresolved store addresses = [""] → ∀ hash ∈ addresses,
    Stored (activeRows (store.tables .hashes)) hash →
      ¬ Pushed store.hashByServer hash
  proto : "__proto__" ∈ addresses →
    ¬ Stored (store.tables .hashes) "__proto__"

def Partitioned (env : FdEnvironment) (conf : Config) (store : FdStore)
    (body : JsValue) (addresses : List String) : Prop :=
  ∃ answer, (serve env (lookup conf body) { store }).sent = [(200, answer)] ∧
    ∀ hash ∈ addresses, Placed answer (Stored (store.tables .hashes) hash)
      (Pushed store.hashByServer hash) hash

section Partition

variable {store : FdStore} {addresses : List String}

theorem unresolved_eq (unique : UniqueHashes (store.tables .hashes)) :
    (addresses.filter (· ∉ allMatchingHashes (assignAll (activeRows
      (selectHashes (store.tables .hashes) addresses))))) =
      unresolved store addresses := by
  apply List.filter_congr
  intro hash hrequested
  have hactive : activeRows (selectHashes (store.tables .hashes) addresses) =
      selectHashes (activeRows (store.tables .hashes)) addresses :=
    filter_selectHashes _ _ _
  have hnames := mem_fieldNames_assignAll (uniqueHashes_select
    (uniqueHashes_filter unique (·.active == some 1)) addresses) hash
  have hstored := @stored_select (activeRows (store.tables .hashes)) addresses
    hash hrequested
  rw [decide_eq_decide, hactive]
  exact not_congr (hnames.trans (and_congr_right fun _ => hstored))

theorem pushed_thirdPartyRows (unresolved : List String) (hash : String) :
    Pushed (thirdPartyRows store unresolved) hash ↔
      Pushed store.hashByServer hash ∧
        (hash ∈ unresolved ∨ unresolved = [""]) := by
  unfold Pushed thirdPartyRows
  cases unresolved with
  | nil => simp
  | cons first rest =>
      rw [List.isEmpty_cons, if_neg Bool.false_ne_true]
      simp only [mem_selectServerHashes, droppedAddresses, reduceCtorEq,
        false_or]
      constructor
      · rintro ⟨row, ⟨hrow, hselected⟩, hhash⟩
        rw [hhash] at hselected
        exact ⟨⟨row, hrow, hhash⟩, hselected.symm⟩
      · rintro ⟨⟨row, hrow, hhash⟩, hselected⟩
        rw [← hhash] at hselected
        exact ⟨row, ⟨hrow, hselected.symm⟩, hhash⟩

theorem mem_unresolved {hash : String} (requested : hash ∈ addresses) :
    hash ∈ unresolved store addresses ↔
      ¬ (hash ≠ "__proto__" ∧
        Stored (activeRows (store.tables .hashes)) hash) := by
  rw [unresolved, List.mem_filter, decide_eq_true_iff]
  exact and_iff_right requested

/-- Where the reply reports a requested hash. -/
structure Reports (store : FdStore) (addresses : List String)
    (answer : JsValue) (hash : String) : Prop where
  mappings : hash ∈ fieldNames answer "mappings" ↔
    hash ≠ "__proto__" ∧ Stored (activeRows (store.tables .hashes)) hash
  inactives : hash ∈ fieldNames answer "inactive_mappings" ↔
    hash ≠ "__proto__" ∧ Stored (inactiveRows (store.tables .hashes)) hash
  others : hash ∈ reportedHashes answer ↔ Pushed store.hashByServer hash ∧
    (¬ (hash ≠ "__proto__" ∧
      Stored (activeRows (store.tables .hashes)) hash) ∨
      unresolved store addresses = [""])

theorem lookup_reports (env : FdEnvironment) {conf : Config} {body : JsValue}
    (features : conf.additionalFeatures = true)
    (valid : Valid (lookupValidators conf) body)
    (haddresses : stringArray? (property body "addresses") = some addresses)
    (unique : UniqueHashes (store.tables .hashes)) :
    ∃ answer, (serve env (lookup conf body) { store }).sent =
        [(200, answer)] ∧
      ∀ hash ∈ addresses, Reports store addresses answer hash := by
  rw [sent_lookup env store valid haddresses, serve_onHashRows,
    unresolved_eq unique]
  refine ⟨_, rfl, ?_⟩
  intro hash hrequested
  refine ⟨?_, ?_, ?_⟩
  · rw [fieldNames_mappings, activeRows, filter_selectHashes,
      mem_fieldNames_assignAll (uniqueHashes_select
        (uniqueHashes_filter unique _) addresses)]
    exact and_congr_right fun _ => stored_select hrequested
  · rw [fieldNames_inactives _ _ _ _ features, inactiveRows,
      filter_selectHashes,
      mem_fieldNames_assignAll (uniqueHashes_select
        (uniqueHashes_filter unique _) addresses)]
    exact and_congr_right fun _ => stored_select hrequested
  · rw [mem_reportedHashes, pushed_thirdPartyRows, mem_unresolved hrequested]

theorem separable_of_placed {answer : JsValue}
    (reports : ∀ hash ∈ addresses, Reports store addresses answer hash)
    (placed : ∀ hash ∈ addresses,
      Placed answer (Stored (store.tables .hashes) hash)
        (Pushed store.hashByServer hash) hash)
    (unique : UniqueHashes (store.tables .hashes)) :
    Separable store addresses := by
  have hproto : "__proto__" ∈ addresses →
      ¬ Stored (store.tables .hashes) "__proto__" := by
    intro hrequested hstored
    have hplaced := placed _ hrequested
    have hreports := reports _ hrequested
    rcases hplaced.somewhere (.inl hstored) with hactive | hinactive | hother
    · exact (hreports.mappings.mp hactive).1 rfl
    · exact (hreports.inactives.mp hinactive).1 rfl
    · exact hplaced.not_elsewhere (.inl hstored) hother
  refine ⟨?_, ?_, hproto⟩
  · intro hash hrequested hinactive hpushed
    have hstored := (stored_iff _ _).mpr (.inr hinactive)
    apply (placed hash hrequested).not_elsewhere (.inl hstored)
    refine (reports hash hrequested).others.mpr ⟨hpushed, .inl ?_⟩
    rintro ⟨_, hactive⟩
    exact not_active_and_inactive unique ⟨hactive, hinactive⟩
  · intro hdropped hash hrequested hactive hpushed
    have hstored := (stored_iff _ _).mpr (.inl hactive)
    apply (placed hash hrequested).not_elsewhere (.inl hstored)
    exact (reports hash hrequested).others.mpr ⟨hpushed, .inr hdropped⟩

theorem placed_of_separable {answer : JsValue} {hash : String}
    (requested : hash ∈ addresses)
    (reports : Reports store addresses answer hash)
    (separable : Separable store addresses)
    (unique : UniqueHashes (store.tables .hashes)) :
    Placed answer (Stored (store.tables .hashes) hash)
      (Pushed store.hashByServer hash) hash := by
  have hproto : Stored (store.tables .hashes) hash → hash ≠ "__proto__" := by
    rintro hstored rfl
    exact separable.proto requested hstored
  have hlocal : hash ∈ fieldNames answer "mappings" ∨
      hash ∈ fieldNames answer "inactive_mappings" ↔
        Stored (store.tables .hashes) hash := by
    rw [reports.mappings, reports.inactives, ← and_or_left, ← stored_iff]
    exact and_iff_right_of_imp hproto
  have helsewhere : Stored (store.tables .hashes) hash →
      hash ∉ reportedHashes answer := by
    intro hstored hother
    obtain ⟨hpushed, hasked⟩ := reports.others.mp hother
    rcases (stored_iff _ _).mp hstored with hactive | hinactive
    · rcases hasked with hunresolved | hdropped
      · exact hunresolved ⟨hproto hstored, hactive⟩
      · exact separable.dropped hdropped hash requested hactive hpushed
    · exact separable.inactive hash requested hinactive hpushed
  refine ⟨?_, ?_, ?_⟩
  · rw [reports.mappings, reports.inactives]
    rintro ⟨⟨_, hactive⟩, _, hinactive⟩
    exact not_active_and_inactive unique ⟨hactive, hinactive⟩
  · intro hresolved
    apply helsewhere
    rcases hresolved with hstored | hnamed
    · exact hstored
    · exact hlocal.mp hnamed
  · intro hknown
    by_cases hstored : Stored (store.tables .hashes) hash
    · rcases hlocal.mpr hstored with hactive | hinactive
      · exact .inl hactive
      · exact .inr (.inl hinactive)
    · refine .inr (.inr (reports.others.mpr
        ⟨hknown.resolve_left hstored, .inl ?_⟩))
      rintro ⟨_, hactive⟩
      exact hstored ((stored_iff _ _).mpr (.inl hactive))

end Partition

/-- The reply is a partition unless a requested hash is known twice. -/
theorem lookup_partition_iff (env : FdEnvironment) {conf : Config}
    {store : FdStore} {body : JsValue} {addresses : List String}
    (features : conf.additionalFeatures = true)
    (valid : Valid (lookupValidators conf) body)
    (haddresses : stringArray? (property body "addresses") = some addresses)
    (unique : UniqueHashes (store.tables .hashes)) :
    Partitioned env conf store body addresses ↔
      Separable store addresses := by
  obtain ⟨answer, hsent, hreports⟩ :=
    lookup_reports env features valid haddresses unique
  constructor
  · rintro ⟨other, hother, hplaced⟩
    rw [hsent] at hother
    cases hother
    exact separable_of_placed hreports hplaced unique
  · intro hseparable
    refine ⟨answer, hsent, ?_⟩
    intro hash hrequested
    exact placed_of_separable hrequested (hreports hash hrequested)
      hseparable unique

def featuredConfig : Config := { Config.sample with additionalFeatures := true }

def lookupContent (addresses : List String) : JsValue :=
  .obj [("algorithm", .str "sha256"), ("pepper", .str "p"),
    ("addresses", .strings addresses)]

def partnerStore : FdStore where
  tables := Function.update emptyStore .hashes
    [{ hash := "h-alice", pepper := "p", type := "mail",
       value := "@alice:example.org", active := some 1 },
     { hash := "h-carol", pepper := "p", type := "mail",
       value := "@carol:example.org", active := some 0 }]
  hashByServer :=
    [{ hash := "h-alice", server := "matrix.example.com", pepper := "p" },
     { hash := "h-carol", server := "matrix.example.com", pepper := "p" }]

theorem lookupContent_valid :
    Valid (lookupValidators featuredConfig) (lookupContent ["h-carol"]) ∧
      Valid (lookupValidators featuredConfig) (lookupContent ["h-alice"]) :=
  ⟨validationErrors_eq_nil.mp rfl, validationErrors_eq_nil.mp rfl⟩

theorem partnerStore_unique : UniqueHashes (partnerStore.tables .hashes) := by
  unfold UniqueHashes
  decide

theorem lookup_partition_alice :
    Partitioned .sample featuredConfig partnerStore (lookupContent ["h-alice"])
      ["h-alice"] := by
  apply (lookup_partition_iff .sample rfl lookupContent_valid.2 rfl
    partnerStore_unique).mpr
  refine ⟨?_, ?_, ?_⟩
  · decide
  · decide
  · decide

/-- An inactive hash of the directory is also reported for another server. -/
theorem lookup_reports_carol_twice :
    ¬ Partitioned .sample featuredConfig partnerStore
      (lookupContent ["h-carol"]) ["h-carol"] := by
  rintro ⟨answer, hanswer, hplaced⟩
  obtain ⟨other, hother, hreports⟩ := lookup_reports .sample rfl
    lookupContent_valid.1 rfl partnerStore_unique
  rw [hother] at hanswer
  cases hanswer
  have hcarol := hreports "h-carol" List.mem_cons_self
  apply (hplaced "h-carol" List.mem_cons_self).not_elsewhere (.inl (by decide))
  exact hcarol.others.mpr ⟨by decide, .inl (by decide)⟩

end TwakeKickstart.FederatedIdentityService
