import Mathlib.Data.List.Nodup
import TwakeKickstart.FederatedIdentityService.Validation

namespace TwakeKickstart.FederatedIdentityService

open Library Utils IdentityServer

/-! `POST /lookups`: the hashes that one server pushes for one pepper. -/

def deleteConditions (serverAddress : Option String)
    (currentFedServerPeppers : List String) : List ISQLCondition :=
  ⟨"server", .eq, serverAddress⟩ ::
    currentFedServerPeppers.map fun p => ⟨"pepper", .ne, some p⟩

def noHashes : String :=
  "TypeError: Cannot read properties of undefined (reading 'map')"

def onInserted : Except String Unit → FdProcedure
  | .error message => replyError 500 .unknown message
  | .ok _ => reply 201 (.obj [])

def onDeleted (serverAddress : Option String) (pepper : String)
    (hashes : Option (List String)) : Except String Unit → FdProcedure
  | .error message => replyError 500 .unknown message
  | .ok _ =>
      match serverAddress, hashes with
      | some server, some hashes =>
          .perform (.db (.insertAll
            (hashes.map fun hash => { hash, server, pepper }))) onInserted
      | _, _ => replyError 500 .unknown noHashes

def onPeppers (serverAddress : Option String) (pepper : String)
    (hashes : Option (List String)) :
    Except String (List KeyRow) → FdProcedure
  | .error message => replyError 500 .unknown message
  | .ok rows =>
      .perform (.db (.deleteWhere
        (deleteConditions serverAddress (rows.map KeyRow.data))))
        (onDeleted serverAddress pepper hashes)

def lookupsValidators : List ValidationChain :=
  commonValidators ++ lookupsValidator

def firstMapping (body : JsValue) : Option (String × JsValue) :=
  match property body "mappings" with
  | .obj fields => fields.head?
  | _ => none

def lookups (body : JsValue) : FdProcedure :=
  validationErrorHandler lookupsValidators body
    (let pepper := (stringItem? (property body "pepper")).getD ""
    let mapping := firstMapping body
    .perform (.db (.get .keys ["data"]
      [("name", .strings ["pepper", "previousPepper"])]))
      (onPeppers (mapping.map Prod.fst) pepper
        (mapping.bind fun entry => stringArray? entry.2)))

/-! The insertions of one push, in any order. -/

section InsertAll

variable (engine : SupportedDatabases)

theorem mem_insertAll (rows table : List ServerHash) (row : ServerHash) :
    row ∈ (insertAll engine rows table).2 ↔
      row ∈ table ∨ ∃ other ∈ rows, fit engine other = some row := by
  induction rows generalizing table with
  | nil => simp [insertAll]
  | cons head rest ih =>
      unfold insertAll insertRow
      cases hfit : fit engine head with
      | none => simp [ih, hfit]
      | some stored =>
          by_cases htaken : stored ∈ table
          · simp only [Option.bind_some, htaken, if_true, ih,
              List.exists_mem_cons_iff, hfit, Option.some.injEq]
            constructor
            · rintro (htable | hrest)
              · exact .inl htable
              · exact .inr (.inr hrest)
            · rintro (htable | rfl | hrest)
              · exact .inl htable
              · exact .inl htaken
              · exact .inr hrest
          · simp only [Option.bind_some, htaken, if_false, ih,
              List.exists_mem_cons_iff, hfit, Option.some.injEq,
              List.mem_append, List.mem_singleton]
            rw [or_assoc, eq_comm (a := row)]

/-- All the insertions succeed exactly when no two of them meet and none meets
a stored row. -/
theorem insertAll_ok_iff (rows table : List ServerHash) :
    (insertAll engine rows table).1 = true ↔
      (rows.map (fit engine)).Nodup ∧ ∀ row ∈ rows, ∃ stored,
        fit engine row = some stored ∧ stored ∉ table := by
  induction rows generalizing table with
  | nil => simp [insertAll]
  | cons head rest ih =>
      unfold insertAll insertRow
      rw [List.map_cons, List.nodup_cons, List.forall_mem_cons]
      cases hfit : fit engine head with
      | none => simp
      | some stored =>
          by_cases htaken : stored ∈ table
          · simp [htaken]
          · simp only [Option.bind_some, htaken, if_false, ih,
              Option.some.injEq, exists_eq_left', not_false_eq_true, true_and]
            constructor
            · rintro ⟨hnodup, hfresh⟩
              refine ⟨⟨?_, hnodup⟩, ?_⟩
              · intro hmem
                obtain ⟨row, hrow, hsame⟩ := List.mem_map.mp hmem
                obtain ⟨other, hother, hnew⟩ := hfresh row hrow
                rw [hsame, Option.some.injEq] at hother
                exact hnew (by simp [hother])
              · intro row hrow
                obtain ⟨other, hother, hnew⟩ := hfresh row hrow
                exact ⟨other, hother, fun hmem =>
                  hnew (List.mem_append_left _ hmem)⟩
            · rintro ⟨⟨hhead, hnodup⟩, hfresh⟩
              refine ⟨hnodup, ?_⟩
              intro row hrow
              obtain ⟨other, hother, hnew⟩ := hfresh row hrow
              refine ⟨other, hother, ?_⟩
              intro hmem
              rcases List.mem_append.mp hmem with htable | hlast
              · exact hnew htable
              · rw [List.mem_singleton.mp hlast] at hother
                exact hhead (List.mem_map.mpr ⟨row, hrow, hother⟩)

/-- The order in which the insertions are made changes neither the verdict nor
the content of the table. -/
theorem insertAll_perm {rows other : List ServerHash} (h : rows.Perm other)
    (table : List ServerHash) :
    (insertAll engine rows table).1 = (insertAll engine other table).1 ∧
      ∀ row, row ∈ (insertAll engine rows table).2 ↔
        row ∈ (insertAll engine other table).2 := by
  refine ⟨?_, ?_⟩
  · rw [Bool.eq_iff_iff, insertAll_ok_iff, insertAll_ok_iff,
      (h.map (fit engine)).nodup_iff]
    simp only [h.mem_iff]
  · intro row
    rw [mem_insertAll, mem_insertAll]
    simp only [h.mem_iff]

theorem insertAll_fresh {rows table : List ServerHash} (distinct : rows.Nodup)
    (fits : ∀ row ∈ rows, fit engine row = some row)
    (fresh : ∀ row ∈ rows, row ∉ table) :
    insertAll engine rows table = (true, table ++ rows) := by
  induction rows generalizing table with
  | nil => simp [insertAll]
  | cons head rest ih =>
      rw [List.nodup_cons] at distinct
      rw [List.forall_mem_cons] at fits fresh
      have hrow : insertRow engine table head = some (table ++ [head]) := by
        unfold insertRow
        rw [fits.1, Option.bind_some, if_neg fresh.1]
      unfold insertAll
      rw [hrow]
      simp only
      rw [ih distinct.2 fits.2, List.append_assoc, List.singleton_append]
      intro row hmem hstored
      rcases List.mem_append.mp hstored with htable | hlast
      · exact fresh.2 row hmem htable
      · exact distinct.1 (List.mem_singleton.mp hlast ▸ hmem)

end InsertAll

/-! One push on the database. -/

structure Push where
  server : String
  pepper : String
  hashes : List String

namespace Push

def row (push : Push) (hash : String) : ServerHash where
  hash := hash
  server := push.server
  pepper := push.pepper

def rows (push : Push) : List ServerHash :=
  push.hashes.map push.row

/-- The body is accepted and carries the push. -/
structure Carried (push : Push) (body : JsValue) : Prop where
  valid : Valid lookupsValidators body
  pepper : property body "pepper" = .str push.pepper
  mappings : property body "mappings" =
    .obj [(push.server, .strings push.hashes)]
  distinct : push.hashes.Nodup

variable {push : Push} {row : ServerHash}

theorem row_hash (server : row.server = push.server)
    (pepper : row.pepper = push.pepper) : push.row row.hash = row := by
  rw [Push.row, ← server, ← pepper]

theorem mem_rows : row ∈ push.rows ↔
    row.hash ∈ push.hashes ∧ row.server = push.server ∧
      row.pepper = push.pepper := by
  unfold rows
  rw [List.mem_map]
  constructor
  · rintro ⟨hash, hhash, rfl⟩
    exact ⟨hhash, rfl, rfl⟩
  · rintro ⟨hhash, hserver, hpepper⟩
    exact ⟨row.hash, hhash, row_hash hserver hpepper⟩

theorem row_mem_rows {hash : String} :
    push.row hash ∈ push.rows ↔ hash ∈ push.hashes := by
  rw [mem_rows]
  exact and_iff_left ⟨rfl, rfl⟩

theorem nodup_rows (distinct : push.hashes.Nodup) : push.rows.Nodup := by
  apply distinct.map
  intro hash other h
  exact congrArg ServerHash.hash h

end Push

def currentPeppers (tables : Store) : List String :=
  ((tables .keys).filter fun row =>
    row.name ∈ ["pepper", "previousPepper"]).map KeyRow.data

/-- What the deletion leaves: the rows of other servers and those for a current
pepper. -/
def keptRows (store : FdStore) (server : String) : List ServerHash :=
  store.hashByServer.filter fun row =>
    row.server ≠ server ∨ row.pepper ∈ currentPeppers store.tables

theorem execute_getPeppers (env : FdEnvironment) (store : FdStore) :
    FdCall.execute env (.get .keys ["data"]
        [("name", .strings ["pepper", "previousPepper"])]) store =
      (.ok ((store.tables .keys).filter fun row =>
        row.name ∈ ["pepper", "previousPepper"]), store) := by
  simp only [FdCall.execute]
  rw [execute_get]
  have htext := JsValue.text?_strings ["pepper", "previousPepper"]
  have hbound : boundTexts (.strings ["pepper", "previousPepper"]) =
      some ["pepper", "previousPepper"] := texts?_str _
  have hpresent :
      (JsValue.strings ["pepper", "previousPepper"]).isNullish = false := rfl
  rw [resolve_single hpresent, htext, hbound]
  rw [Option.bind_some, if_neg (by decide), Option.map_some, Option.map_some]
  simp only [orFailure, Prod.mk.injEq, Except.ok.injEq, and_true]
  apply List.filter_congr
  intro row _
  rw [Bool.eq_iff_iff]
  simp [selectsAll, cell]

theorem execute_deleteWhere (env : FdEnvironment) (store : FdStore)
    (server : String) :
    FdCall.execute env (.deleteWhere
        (deleteConditions (some server) (currentPeppers store.tables))) store =
      (.ok (), { store with hashByServer := keptRows store server }) := by
  simp only [FdCall.execute]
  rw [if_neg (by simp [deleteConditions])]
  simp only [Prod.mk.injEq, FdStore.mk.injEq, true_and]
  apply List.filter_congr
  intro row _
  rw [Bool.eq_iff_iff]
  simp only [deleteConditions, List.all_cons, List.all_map, Bool.not_eq_true',
    Bool.and_eq_false_iff, List.all_eq_false, Function.comp_apply,
    decide_eq_true_eq]
  apply or_congr
  · simp [ISQLCondition.holds, ServerHash.cell, Operator.test]
  · simp [ISQLCondition.holds, ServerHash.cell, Operator.test]

theorem serve_lookups (env : FdEnvironment) (store : FdStore) {push : Push}
    {body : JsValue} (carried : push.Carried body) :
    serve env (lookups body) { store } =
      let inserted := insertAll env.driver.engine push.rows
        (keptRows store push.server)
      { store := { store with hashByServer := inserted.2 }
        sent := [if inserted.1 then (201, .obj [])
          else (500, errMsg .unknown
            (.str (env.failure (.insertAll push.rows))))] } := by
  have hmapping : firstMapping body =
      some (push.server, .strings push.hashes) := by
    unfold firstMapping
    rw [carried.mappings]
    rfl
  rw [lookups, validationErrorHandler_valid _ carried.valid, hmapping,
    carried.pepper, serve_db, execute_getPeppers]
  simp only [onPeppers, serve_db, Option.map_some]
  rw [← currentPeppers, execute_deleteWhere]
  simp only [onDeleted, Option.bind_some, stringArray?_strings, serve_db,
    FdCall.execute]
  change serve env (onInserted (if (insertAll env.driver.engine push.rows
    (keptRows store push.server)).1 then _ else _)) _ = _
  cases (insertAll env.driver.engine push.rows
    (keptRows store push.server)).1 with
  | true => rfl
  | false => rfl

/-! What a push has to do, and when it does it. -/

structure ExactPush (env : FdEnvironment) (store : FdStore) (push : Push)
    (body : JsValue) : Prop where
  answered : (serve env (lookups body) { store }).sent = [(201, .obj [])]
  exact : ∀ hash, push.row hash ∈
      (serve env (lookups body) { store }).store.hashByServer ↔
    hash ∈ push.hashes
  repeated : serve env (lookups body)
      { store := (serve env (lookups body) { store }).store } =
    { store := (serve env (lookups body) { store }).store
      sent := [(201, .obj [])] }

/-- The pepper is outdated, or nothing is stored and nothing is pushed for
it. -/
structure FreshPush (env : FdEnvironment) (store : FdStore) (push : Push)
    (_body : JsValue) : Prop where
  fits : env.driver.engine = .pg → ∀ hash ∈ push.hashes, hash.length ≤ 48
  outdated : push.pepper ∈ currentPeppers store.tables →
    push.hashes = [] ∧ ∀ row ∈ store.hashByServer,
      ¬ (row.server = push.server ∧ row.pepper = push.pepper)

theorem varchar_self (engine : SupportedDatabases) (limit : Nat)
    {text : String} (h : engine = .pg → text.length ≤ limit) :
    varchar engine limit text = some text := by
  cases engine with
  | sqlite => rfl
  | pg => exact if_pos (h rfl)

theorem length_varchar {limit : Nat} {text stored : String}
    (h : varchar .pg limit text = some stored) : stored.length ≤ limit := by
  unfold varchar at h
  simp only at h
  split at h
  · rename_i hlength
    cases h
    exact hlength
  · split at h
    · cases h
      rw [String.length_ofList, List.length_take]
      exact Nat.min_le_left _ _
    · cases h

theorem varchar_varchar {engine : SupportedDatabases} {limit : Nat}
    {text stored : String} (h : varchar engine limit text = some stored) :
    varchar engine limit stored = some stored := by
  apply varchar_self
  rintro rfl
  exact length_varchar h

section Exactness

variable {env : FdEnvironment} {store : FdStore} {push : Push}
variable {body : JsValue}

theorem mem_keptRows {server : String} {row : ServerHash} :
    row ∈ keptRows store server ↔ row ∈ store.hashByServer ∧
      (row.server ≠ server ∨ row.pepper ∈ currentPeppers store.tables) := by
  rw [keptRows, List.mem_filter, decide_eq_true_iff]

theorem answered_iff (carried : push.Carried body) :
    (serve env (lookups body) { store }).sent = [(201, .obj [])] ↔
      (insertAll env.driver.engine push.rows
        (keptRows store push.server)).1 = true := by
  rw [serve_lookups env store carried]
  cases hinserted : (insertAll env.driver.engine push.rows
    (keptRows store push.server)).1 with
  | true => simp [hinserted]
  | false => simp [hinserted]

theorem stored_lookups (carried : push.Carried body) :
    (serve env (lookups body) { store }).store = { store with
      hashByServer := (insertAll env.driver.engine push.rows
        (keptRows store push.server)).2 } := by
  rw [serve_lookups env store carried]

theorem freshPush_of_exact (carried : push.Carried body)
    (exactly : ExactPush env store push body) :
    FreshPush env store push body := by
  have hfirst := (answered_iff carried).mp exactly.answered
  have hagain := (@answered_iff env _ push body carried).mp
    (congrArg FdWorld.sent exactly.repeated)
  have hexact := exactly.exact
  rw [stored_lookups carried] at hagain hexact
  obtain ⟨hnodup, hstored⟩ := (insertAll_ok_iff _ _ _).mp hfirst
  obtain ⟨_, hstored'⟩ := (insertAll_ok_iff _ _ _).mp hagain
  refine ⟨?_, ?_⟩
  · intro hengine hash hhash
    have hrow := Push.row_mem_rows.mpr hhash
    obtain ⟨kept, hkept, _⟩ := hstored _ hrow
    obtain ⟨text, htext, rfl⟩ := Option.map_eq_some_iff.mp hkept
    have hpushed := (hexact text).mp
      ((mem_insertAll _ _ _ _).mpr (.inr ⟨_, hrow, hkept⟩))
    have hfit : fit env.driver.engine (push.row text) =
        some (push.row text) := by
      rw [fit, Push.row, varchar_varchar htext]
      rfl
    have hsame := List.inj_on_of_nodup_map hnodup hrow
      (Push.row_mem_rows.mpr hpushed) (hkept.trans hfit.symm)
    have htexts : hash = text := congrArg ServerHash.hash hsame
    rw [htexts]
    rw [hengine] at htext
    exact length_varchar htext
  · intro hcurrent
    have hnone : push.hashes = [] := by
      apply List.eq_nil_iff_forall_not_mem.mpr
      intro hash hhash
      have hrow := Push.row_mem_rows.mpr hhash
      obtain ⟨kept, hkept, hnew⟩ := hstored' _ hrow
      apply hnew
      rw [mem_keptRows]
      refine ⟨(mem_insertAll _ _ _ _).mpr (.inr ⟨_, hrow, hkept⟩), .inr ?_⟩
      obtain ⟨text, _, rfl⟩ := Option.map_eq_some_iff.mp hkept
      exact hcurrent
    refine ⟨hnone, ?_⟩
    rintro row hrow ⟨hserver, hpepper⟩
    rw [← Push.row_hash hserver hpepper] at hrow
    have hmem := (hexact row.hash).mp ((mem_insertAll _ _ _ _).mpr
      (.inl (mem_keptRows.mpr ⟨hrow, .inr hcurrent⟩)))
    rw [hnone] at hmem
    cases hmem

theorem insertAll_push (distinct : push.hashes.Nodup)
    (fresh : FreshPush env store push body) :
    insertAll env.driver.engine push.rows (keptRows store push.server) =
      (true, keptRows store push.server ++ push.rows) := by
  apply insertAll_fresh _ (Push.nodup_rows distinct)
  · intro row hrow
    rw [fit, varchar_self _ _ fun hengine =>
      fresh.fits hengine _ (Push.mem_rows.mp hrow).1]
    rfl
  · intro row hrow hkept
    obtain ⟨hhash, hserver, hpepper⟩ := Push.mem_rows.mp hrow
    rcases (mem_keptRows.mp hkept).2 with hother | hcurrent
    · exact hother hserver
    · rw [hpepper] at hcurrent
      rw [(fresh.outdated hcurrent).1] at hhash
      cases hhash

theorem keptRows_push (fresh : FreshPush env store push body) :
    keptRows { store with
        hashByServer := keptRows store push.server ++ push.rows }
      push.server = keptRows store push.server := by
  have hrows : push.rows.filter (fun row => row.server ≠ push.server ∨
      row.pepper ∈ currentPeppers store.tables) = [] := by
    apply List.filter_eq_nil_iff.mpr
    intro row hrow hkept
    obtain ⟨hhash, hserver, hpepper⟩ := Push.mem_rows.mp hrow
    rcases of_decide_eq_true hkept with hother | hcurrent
    · exact hother hserver
    · rw [hpepper] at hcurrent
      rw [(fresh.outdated hcurrent).1] at hhash
      cases hhash
  unfold keptRows
  simp only [List.filter_append, List.filter_filter, Bool.and_self]
  rw [hrows, List.append_nil]

theorem exactPush_of_fresh (carried : push.Carried body)
    (fresh : FreshPush env store push body) :
    ExactPush env store push body := by
  have hfirst := insertAll_push carried.distinct fresh
  have hserved := serve_lookups env store carried
  rw [hfirst] at hserved
  refine ⟨?_, ?_, ?_⟩
  · rw [hserved]
    rfl
  · intro hash
    rw [hserved, List.mem_append, Push.row_mem_rows, mem_keptRows]
    constructor
    · rintro (⟨hrow, hother | hcurrent⟩ | hhash)
      · exact absurd rfl hother
      · exact absurd ⟨rfl, rfl⟩ ((fresh.outdated hcurrent).2 _ hrow)
      · exact hhash
    · intro hhash
      exact .inr hhash
  · rw [hserved, serve_lookups env _ carried]
    simp only
    rw [keptRows_push fresh, hfirst]
    rfl

end Exactness

/-! Sequences of pushes, between which the service rotates its peppers. -/

inductive FdEvent where
  | lookups (body : JsValue)
  | rotation (keys : List KeyRow)

def afterEvent (env : FdEnvironment) (store : FdStore) : FdEvent → FdStore
  | .lookups body => (serve env (lookups body) { store }).store
  | .rotation keys =>
      { store with tables := Function.update store.tables .keys keys }

/-- Every push of a run has the property in the state in which it arrives. -/
def EveryPush (env : FdEnvironment)
    (property : FdStore → Push → JsValue → Prop) :
    List FdEvent → FdStore → Prop
  | [], _ => True
  | .lookups body :: rest, store =>
      (∀ push : Push, push.Carried body → property store push body) ∧
        EveryPush env property rest (afterEvent env store (.lookups body))
  | .rotation keys :: rest, store =>
      EveryPush env property rest (afterEvent env store (.rotation keys))

theorem everyPush_congr (env : FdEnvironment)
    {property other : FdStore → Push → JsValue → Prop}
    (h : ∀ store push body, push.Carried body →
      (property store push body ↔ other store push body))
    (events : List FdEvent) (store : FdStore) :
    EveryPush env property events store ↔
      EveryPush env other events store := by
  induction events generalizing store with
  | nil => exact Iff.rfl
  | cons event rest ih =>
      cases event with
      | lookups body =>
          apply and_congr _ (ih _)
          exact forall_congr' fun push =>
            imp_congr_right fun hcarried => h store push body hcarried
      | rotation keys => exact ih _

/-- In every run the pushes are idempotent and exact exactly where they are
fresh. -/
theorem pushes_exact_iff (env : FdEnvironment) (events : List FdEvent)
    (start : FdStore) :
    EveryPush env (ExactPush env) events start ↔
      EveryPush env (FreshPush env) events start := by
  apply everyPush_congr
  intro store push body hcarried
  constructor
  · intro hexact
    exact freshPush_of_exact hcarried hexact
  · intro hfresh
    exact exactPush_of_fresh hcarried hfresh

/-! The federated job pushes for the current pepper, and does so again the next
day. -/

def lookupsContent (pepper : String) (server : String)
    (hashes : List String) : JsValue :=
  .obj [("algorithm", .str "sha256"), ("pepper", .str pepper),
    ("mappings", .obj [(server, .strings hashes)])]

def pepperedStore : FdStore where
  tables := Function.update emptyStore .keys
    [{ name := "pepper", data := "p" }, { name := "previousPepper", data := "" }]
  hashByServer := []

def dailyPush : JsValue :=
  lookupsContent "p" "matrix.example.com" ["h-alice"]

def pushedStore : FdStore :=
  afterEvent .sample pepperedStore (.lookups dailyPush)

/-- The first push is answered as it should, the equal one after it is not. -/
theorem daily_push_fails :
    (serve .sample (lookups dailyPush) { store := pepperedStore }).sent =
        [(201, .obj [])] ∧
      (serve .sample (lookups dailyPush) { store := pushedStore }).sent.map
        Prod.fst = [500] ∧
      ¬ EveryPush .sample (ExactPush .sample)
        [.lookups dailyPush, .lookups dailyPush] pepperedStore := by
  have hcarried : (Push.mk "matrix.example.com" "p" ["h-alice"]).Carried
      dailyPush :=
    ⟨validationErrors_eq_nil.mp rfl, rfl, rfl, List.nodup_singleton _⟩
  have hsecond : (serve .sample (lookups dailyPush)
      { store := pushedStore }).sent.map Prod.fst = [500] := rfl
  refine ⟨rfl, hsecond, ?_⟩
  intro h
  have hsent := (h.2.1 _ hcarried).answered
  change (serve .sample (lookups dailyPush) { store := pushedStore }).sent = _
    at hsent
  rw [hsent] at hsecond
  cases hsecond

end TwakeKickstart.FederatedIdentityService
