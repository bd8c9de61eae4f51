import TwakeKickstart.IdentityServer.Invitation.Handler
import TwakeKickstart.IdentityServer.ThreePid.Bind
import TwakeKickstart.Library.Traversal

namespace TwakeKickstart.IdentityServer.Invitation.Handler

open Library Utils

/-! What the homeserver is told about the invitations of an address when the
address is bound. -/

/-- The world, and the requests that a procedure makes of other servers. -/
def recordPosts (env : Environment) (now : Nat) :
    Library.Handler Effect Effect.Result (World × List JsValue)
  | .post _ _ body, (world, posts) => ((), (world, posts ++ [body]))
  | effect, (world, posts) =>
      let (result, world) := handle env ⟨false, now⟩ effect world
      (result, (world, posts))

def postsOf (env : Environment) (now : Nat) (procedure : Procedure)
    (store : Store) : List JsValue :=
  (procedure.run (recordPosts env now) ({ store }, [])).2

/-- `JSON.stringify` writes `null` for an item that is undefined. -/
def encodedItem : JsValue → JsValue
  | .undefined => .null
  | item => item

def sentInvites (body : JsValue) : List JsValue :=
  match field body "invites" with
  | .arr items => items.map encodedItem
  | _ => []

/-- The objects that the rows of an address hold. -/
def objectsFor (address : String) (rows : List InvitationToken) :
    List JsValue :=
  (rows.filter (·.address == address)).filterMap (·.data)

/-- The homeserver gets the invitations of the address, and no others. -/
def InvitesDelivered (env : Environment) (now : Nat) (mxid : JsValue)
    (address medium : String) (store : Store) (objects : List JsValue) :
    Prop :=
  ((postsOf env now (_onBind mxid address medium) store).flatMap
    sentInvites).Perm objects

section Posts

variable (env : Environment) (now : Nat) {store : Store}
variable {address medium : String}

theorem postsOf_post (server path : String) (body : JsValue) :
    postsOf env now (.perform (.post server path body) fun _ => .done) store =
      [body] := rfl

theorem postsOf_get {table : Collections} (fields : List String)
    (column : String) {value : String} (named : value ≠ "")
    (next : Option (List (Row table)) → Procedure) :
    postsOf env now (.perform
        (.db (.get table fields [(column, .str value)])) next) store =
      postsOf env now (next (some ((store table).filter fun row =>
        Operator.eq.test (cell table row column) value))) store := by
  have hrows := execute_get env.driver table fields [(column, .str value)] store
  rw [resolve_cons_str, if_neg named, resolve_nil] at hrows
  simp only [Option.map_some, selectsAll, List.all_cons, List.all_nil,
    List.any_cons, List.any_nil, Bool.or_false, Bool.and_true] at hrows
  simp only [postsOf, Program.run_perform, recordPosts, handle,
    Bool.false_eq_true, if_false, hrows]

/-- Rows that hold objects are posted as what the field `data` of each object
gives. -/
theorem invites_onInvitations (server : String) (mxid : JsValue)
    {tokens : List JsValue}
    (objects : ∀ token ∈ tokens, ∃ fields, token = .obj fields) :
    (postsOf env now (onInvitations server mxid address medium (some tokens))
        store).flatMap sentInvites =
      tokens.map fun token => encodedItem (field token "data") := by
  cases tokens with
  | nil => rfl
  | cons first rest =>
      have hmap : (first :: rest).mapM (·.property "data") =
          some ((first :: rest).map (field · "data")) := by
        refine mapM_eq_some_map fun token htoken => ?_
        obtain ⟨fields, rfl⟩ := objects token htoken
        rfl
      unfold onInvitations
      dsimp only
      rw [hmap]
      dsimp only
      rw [postsOf_post, List.flatMap_singleton]
      change ((first :: rest).map (field · "data")).map encodedItem = _
      rw [List.map_map]
      rfl

/-- What is sent for an address: nothing, or the field `data` of each of its
objects. -/
theorem invites_onBind (mxid : JsValue) (named : address ≠ "")
    (stored : ∀ row ∈ store .invitationTokens,
      ∃ fields, row.data = some (.obj fields)) :
    (postsOf env now (_onBind mxid address medium) store).flatMap sentInvites =
        [] ∨
    (postsOf env now (_onBind mxid address medium) store).flatMap sentInvites =
      (objectsFor address (store .invitationTokens)).map fun object =>
        encodedItem (field object "data") := by
  unfold _onBind
  cases getServerNameFromMatrixId mxid with
  | none => exact .inl rfl
  | some server =>
      refine .inr ?_
      dsimp only
      rw [listInvitationTokens, postsOf_get env now _ _ named]
      have hrows : ((store .invitationTokens).filter fun row =>
          Operator.eq.test (cell .invitationTokens row "address") address) =
          (store .invitationTokens).filter (·.address == address) := by
        refine List.filter_congr fun row _ => ?_
        rw [Bool.eq_iff_iff]
        simp [cell]
      have hparsed : parsedInvitations
          ((store .invitationTokens).filter (·.address == address)) =
          some (objectsFor address (store .invitationTokens)) := by
        have hsome : ∀ row ∈ (store .invitationTokens).filter
            (·.address == address), row.data = some (row.data.getD .null) := by
          intro row hrow
          obtain ⟨fields, hfields⟩ := stored row (List.mem_filter.mp hrow).1
          rw [hfields]
          rfl
        rw [parsedInvitations, mapM_eq_some_map hsome, objectsFor]
        congr 1
        rw [← List.filterMap_eq_map]
        exact List.filterMap_congr fun row hrow => (hsome row hrow).symm
      rw [Option.bind_some, hrows, hparsed]
      refine invites_onInvitations env now server mxid fun token htoken => ?_
      obtain ⟨row, hrow, hdata⟩ := List.mem_filterMap.mp htoken
      obtain ⟨fields, hfields⟩ := stored row (List.mem_filter.mp hrow).1
      rw [hfields] at hdata
      exact ⟨fields, (Option.some.inj hdata).symm⟩

end Posts

/-! An object is larger than what one of its fields gives. -/

theorem sizeOf_encodedItem (item : JsValue) :
    sizeOf (encodedItem item) ≤ sizeOf item := by
  cases item with
  | undefined => exact Nat.le_refl _
  | null => exact Nat.le_refl _
  | bool b => exact Nat.le_refl _
  | num n => exact Nat.le_refl _
  | str s => exact Nat.le_refl _
  | arr items => exact Nat.le_refl _
  | obj fields => exact Nat.le_refl _

theorem sizeOf_encoded_field (fields : JsObject) (key : String) :
    sizeOf (encodedItem (field (.obj fields) key)) <
      sizeOf (JsValue.obj fields) := by
  have hscalar : 2 ≤ sizeOf (JsValue.obj fields) := by
    rw [JsValue.obj.sizeOf_spec]
    cases fields with
    | nil => simp
    | cons entry rest => simp; omega
  have hfield : field (.obj fields) key =
      (fields.lookup key).getD .undefined := rfl
  rw [hfield]
  cases hlookup : fields.lookup key with
  | none =>
      rw [Option.getD_none, encodedItem, JsValue.null.sizeOf_spec]
      omega
  | some value =>
      have hlt : sizeOf (key, value) < sizeOf fields :=
        List.sizeOf_lt_of_mem (mem_of_lookup hlookup)
      have hvalue := sizeOf_encodedItem value
      rw [Prod.mk.sizeOf_spec] at hlt
      rw [Option.getD_some, JsValue.obj.sizeOf_spec]
      omega

theorem not_perm_fields {objects : List JsValue} (named : objects ≠ [])
    (shaped : ∀ object ∈ objects, ∃ fields, object = .obj fields) :
    ¬ (objects.map fun object =>
      encodedItem (field object "data")).Perm objects := by
  intro perm
  have hgrow : ∀ size, ∃ object ∈ objects, size ≤ sizeOf object := by
    intro size
    induction size with
    | zero =>
        obtain ⟨object, hobject⟩ := List.exists_mem_of_ne_nil objects named
        exact ⟨object, hobject, Nat.zero_le _⟩
    | succ size ih =>
        obtain ⟨object, hobject, hsize⟩ := ih
        obtain ⟨other, hother, hfield⟩ :=
          List.mem_map.mp (perm.mem_iff.mpr hobject)
        obtain ⟨fields, rfl⟩ := shaped other hother
        have hlt := sizeOf_encoded_field fields "data"
        rw [hfield] at hlt
        exact ⟨.obj fields, hother, by omega⟩
  obtain ⟨object, hobject, hsize⟩ := hgrow (sizeOf objects)
  have hlt := List.sizeOf_lt_of_mem hobject
  omega

theorem objectsFor_shaped {address : String} {rows : List InvitationToken}
    (stored : ∀ row ∈ rows, ∃ fields, row.data = some (.obj fields)) :
    ∀ object ∈ objectsFor address rows, ∃ fields, object = .obj fields := by
  intro object hobject
  obtain ⟨row, hrow, hdata⟩ := List.mem_filterMap.mp hobject
  obtain ⟨fields, hfields⟩ := stored row (List.mem_filter.mp hrow).1
  rw [hfields] at hdata
  exact ⟨fields, (Option.some.inj hdata).symm⟩

/-- The invitations stored for an address reach the homeserver just when there
are none. -/
theorem invitesDelivered_iff {env : Environment} {conf : Setup}
    {calls : List Arrival} {start : Server} {address : String}
    (empty : start.store .invitationTokens = []) (named : address ≠ "")
    (now : Nat) (mxid : JsValue) (medium : String) :
    InvitesDelivered env now mxid address medium
        (serveAll env conf calls start).store
        (objectsFor address (madeInvitations env conf calls start)) ↔
      objectsFor address (madeInvitations env conf calls start) = [] := by
  have hrows : (serveAll env conf calls start).store .invitationTokens =
      madeInvitations env conf calls start := by
    rw [invitationTokens_serveAll, empty, List.nil_append]
  have hstored : ∀ row ∈ (serveAll env conf calls start).store
      .invitationTokens, ∃ fields, row.data = some (.obj fields) := by
    rw [hrows]
    exact madeInvitations_obj env conf calls start
  have hsent := @invites_onBind env now _ address medium mxid named hstored
  rw [hrows] at hsent hstored
  unfold InvitesDelivered
  constructor
  · intro perm
    rcases hsent with hnone | hfields
    · rw [hnone] at perm
      exact perm.nil_eq.symm
    · rw [hfields] at perm
      by_contra hsome
      exact not_perm_fields hsome (objectsFor_shaped hstored) perm
  · intro hnone
    rw [hnone] at hsent ⊢
    rcases hsent with hsent | hsent
    · rw [hsent]
    · rw [hsent]
      exact .nil

theorem nothing_delivered_to_carol :
    InvitesDelivered (.offline id) 0 (.str "@carol:example.org")
      "carol@example.org" "email"
      (serveAll (.offline id) sampleSetup aliceInvited (sampleServer [])).store
      (objectsFor "carol@example.org" (madeInvitations (.offline id)
        sampleSetup aliceInvited (sampleServer []))) := by
  refine (invitesDelivered_iff rfl (by decide) 0 _ "email").mpr ?_
  refine List.eq_nil_of_length_eq_zero ?_
  decide

/-- The homeserver of alice is told of one invitation, which is null. -/
theorem alice_gets_null :
    ((postsOf (.offline id) 0
      (_onBind (.str "@alice:example.org") "alice@example.org" "email")
      (serveAll (.offline id) sampleSetup aliceInvited
        (sampleServer [])).store).flatMap sentInvites).map JsValue.isNullish =
      [true] ∧
    ¬ InvitesDelivered (.offline id) 0 (.str "@alice:example.org")
      "alice@example.org" "email"
      (serveAll (.offline id) sampleSetup aliceInvited (sampleServer [])).store
      (objectsFor "alice@example.org" (madeInvitations (.offline id)
        sampleSetup aliceInvited (sampleServer []))) := by
  have hsent : ((postsOf (.offline id) 0
      (_onBind (.str "@alice:example.org") "alice@example.org" "email")
      (serveAll (.offline id) sampleSetup aliceInvited
        (sampleServer [])).store).flatMap sentInvites).map JsValue.isNullish =
      [true] := by
    decide
  refine ⟨hsent, fun perm => ?_⟩
  have hnullish := perm.map JsValue.isNullish
  rw [hsent] at hnullish
  obtain ⟨object, hobject, hnull⟩ :=
    List.mem_map.mp (hnullish.mem_iff.mp List.mem_cons_self)
  obtain ⟨fields, rfl⟩ := objectsFor_shaped
    (madeInvitations_obj (.offline id) sampleSetup aliceInvited
      (sampleServer [])) object hobject
  cases hnull

end TwakeKickstart.IdentityServer.Invitation.Handler
