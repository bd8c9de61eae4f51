import TwakeKickstart.TomServer.MatrixApi.PowerLevels

namespace TwakeKickstart.TomServer.CreateRoom

open Library Heap

/-! Whether the status of a response says that the room exists. -/

def succeeded (status : Nat) : Bool := 200 ≤ status && status ≤ 299

/-- The request that is sent to the homeserver, with the demotion that is to
follow, if the request is sent at all. -/
def sentRequest (service : Service) (req : Request) (heap : Heap) :
    Option (Json × Option Value × Heap) :=
  if req.authorization.getD "" = "" ∨ req.userId.getD "" = "" ∨
      req.body = .null then none
  else service.request req.body (req.userId.getD "") heap

/-- The homeserver has created a room. -/
def created (service : Service) (homeserver : Homeserver) (req : Request)
    (heap : Heap) : Bool :=
  (sentRequest service req heap).isSome &&
    match homeserver.createRoom with
    | none => homeserver.createdUnanswered
    | some response => response.ok

/-- No call of the demotion is rejected, the power levels are answered as an
object or another value with fields, and an error to the update has a text. -/
structure Demotes (homeserver : Homeserver) : Prop where
  levels : ∃ response levels, homeserver.getPowerLevels = some response ∧
    response.ok = true ∧ response.json? = some levels ∧ levels ≠ .null
  update : ∃ response, homeserver.putPowerLevels = some response ∧
    (response.ok = true ∨ response.readable = true)

/-- The configuration has a template for the request. -/
def HasTemplate (service : Service) (req : Request) (heap : Heap) : Prop :=
  ∃ template, getDefaultPowerLevelContent heap service.config req.body =
    some template ∧ template.truthy = true

/-- The call that has created the room is answered with the room, and the
demotion of its owner does not fail. -/
structure Concludes (service : Service) (homeserver : Homeserver)
    (req : Request) (heap : Heap) : Prop where
  answered : ∃ response room, homeserver.createRoom = some response ∧
    response.json? = some room ∧ (roomIdText room).isSome = true
  demoted : HasTemplate service req heap → Demotes homeserver

section Demotion

variable {heap after : Heap} {value level current payload default : Value}
  {homeserver : Homeserver} {roomOwner : String} {levels : Json}

theorem exists_holds_orElse {value : Option Value} {n : Int}
    (h : ∀ part, value = some part → ∃ tree, heap.Holds part tree) :
    ∃ tree, heap.Holds (orElse value (.num n)) tree := by
  cases value with
  | none => exact ⟨_, holds_num⟩
  | some part =>
      cases part with
      | null => exact ⟨_, holds_num⟩
      | bool b => exact ⟨_, holds_bool⟩
      | num n => exact ⟨_, holds_num⟩
      | str s => exact ⟨_, holds_str⟩
      | ref address => exact h _ rfl

theorem initialPowerLevels_level
    (h : initialPowerLevels default payload roomOwner heap =
      some (current, level, after)) : ∃ tree, after.Holds level tree := by
  simp only [initialPowerLevels, Option.bind_eq_bind,
    Option.bind_eq_some_iff, Prod.exists] at h
  obtain ⟨copy, copied, hclone, invited, _, h⟩ := h
  split at h
  · cases h
  · simp only [extractCreatorBecomes, Option.some.injEq, Prod.mk.injEq] at h
    obtain ⟨rfl, rfl, rfl⟩ := h
    obtain ⟨_, _, tree, hdefault, hcopy⟩ := deepClone_eq_some hclone
    apply exists_holds_orElse
    intro part hpart
    -- only an object has the field, and its parts are older than the copy
    obtain ⟨trees, rfl⟩ := hcopy.object_of_get? hpart
    obtain ⟨base, fields, _, hfields, hnew⟩ := deepClone_object hdefault
    rw [hclone, Option.some.injEq] at hnew
    obtain ⟨rfl, rfl⟩ := Prod.mk.inj hnew
    have hlookup : fields.lookup "creator_becomes" = some part := by
      rw [← hpart]
      exact (get?_ref (cell_new base _) _).symm
    obtain ⟨tree, htree⟩ := exists_holds_field hfields hlookup
    refine ⟨tree, htree.extends (Extends.modify ?_ (Nat.le_refl _))⟩
    exact (Extends.new _ _).trans
      (Extends.modify (.new base _) (Nat.le_refl _))

theorem holdsFields_zipIdx {items : List Value} {trees : List Json}
    (h : heap.HoldsItems items trees) (start : Nat) :
    heap.HoldsFields
      ((items.zipIdx start).map fun (item, index) => (toString index, item))
      ((trees.zipIdx start).map fun (item, index) =>
        (toString index, item)) := by
  induction h generalizing start with
  | nil => exact .nil
  | cons hhead _ ih => exact .cons ⟨rfl, hhead⟩ (ih (start + 1))

theorem holdsFields_ownFields {tree : Json} (h : heap.Holds value tree) :
    ∃ trees, heap.HoldsFields (ownFields heap value) trees := by
  cases value with
  | ref address =>
      rcases h.cell with ⟨items, trees, hcell, _, hall⟩ |
        ⟨fields, trees, hcell, _, hall⟩
      · simp only [ownFields, cell?, hcell]
        exact ⟨_, holdsFields_zipIdx hall 0⟩
      · simp only [ownFields, cell?, hcell]
        exact ⟨trees, hall⟩
  | null => exact ⟨[], .nil⟩
  | bool b => exact ⟨[], .nil⟩
  | num n => exact ⟨[], .nil⟩
  | str s => exact ⟨[], .nil⟩

theorem holdsFields_explicitUsers {tree : Json}
    (h : heap.Holds value tree) :
    ∃ trees, heap.HoldsFields (explicitUsers heap value) trees := by
  unfold explicitUsers
  cases hget : heap.get? value "users" with
  | none => exact ⟨[], .nil⟩
  | some users =>
      obtain ⟨part, hpart⟩ := h.part hget
      dsimp only
      split
      · exact holdsFields_ownFields hpart
      · exact ⟨[], .nil⟩

theorem demotionContent_isSome {tree : Json} (h : heap.Holds level tree) :
    (demotionContent levels roomOwner level heap).isSome = true ↔
      levels ≠ .null := by
  have hparsed := parse_spec levels heap
  have hnull : (parse levels heap).1 = .null ↔ levels = .null := by
    constructor
    · intro hvalue
      have hholds := hparsed.holds
      rw [hvalue] at hholds
      exact hholds.unique holds_null
    · rintro rfl
      rfl
  simp only [demotionContent]
  split
  · rename_i hvalue
    simp [hnull.mp hvalue]
  · rename_i hvalue
    have hlevel := h.extends hparsed.extends_
    obtain ⟨users, husers⟩ := holdsFields_explicitUsers hparsed.holds
    have hnew := new_object (Fields.Rel.put husers roomOwner hlevel)
    obtain ⟨fields, hfields⟩ :=
      holdsFields_ownFields (hparsed.holds.extends hnew.extends_)
    have hcontent :=
      (new_object (Fields.Rel.put hfields "users" hnew.holds)).holds
    simp only [Option.bind_eq_bind, hcontent.stringify, Option.bind_some,
      Option.isSome_some, true_iff]
    exact fun hlevels => hvalue (hnull.mpr hlevels)

theorem demoteRoomOwner_isSome {tree : Json} (h : heap.Holds level tree) :
    (demoteRoomOwner homeserver roomOwner level heap).isSome = true ↔
      Demotes homeserver := by
  simp only [Option.isSome_iff_exists, demoteRoomOwner, Option.bind_eq_bind,
    Option.bind_eq_some_iff]
  constructor
  · intro ⟨_, response, hlevels, hrest⟩
    split at hrest
    · cases hrest
    · rename_i hok
      simp only [Option.bind_eq_some_iff] at hrest
      obtain ⟨levels, hjson, content, hcontent, update, hupdate, hlast⟩ := hrest
      refine ⟨⟨response, levels, hlevels, by simpa using hok, hjson, ?_⟩,
        ⟨update, hupdate, ?_⟩⟩
      · exact (demotionContent_isSome h).mp
          (Option.isSome_iff_exists.mpr ⟨content, hcontent⟩)
      · split at hlast
        · rename_i hquiet
          exact Bool.or_eq_true_iff.mp hquiet
        · cases hlast
  · intro ⟨⟨response, levels, hlevels, hok, hjson, hne⟩, update, hupdate,
      hquiet⟩
    obtain ⟨content, hcontent⟩ := Option.isSome_iff_exists.mp
      ((@demotionContent_isSome _ _ roomOwner _ _ h).mpr hne)
    refine ⟨(), response, hlevels, ?_⟩
    rw [hok, Bool.not_true, if_neg Bool.false_ne_true]
    simp only [Option.bind_eq_some_iff]
    refine ⟨levels, hjson, content, hcontent, update, hupdate, ?_⟩
    rw [if_pos (Bool.or_eq_true_iff.mpr hquiet)]

end Demotion

/-! What the homeserver is asked, and whether a demotion follows. -/

section Sent

variable {service : Service} {homeserver : Homeserver} {req : Request}
  {heap after larger : Heap} {config payload : Value} {roomOwner : String}
  {body : Json} {level : Option Value}

theorem hasLengthOne_extends {value : Value} {tree : Json}
    (h : heap.Holds value tree) (extends_ : larger.Extends heap) :
    hasLengthOne larger value = hasLengthOne heap value := by
  cases value with
  | str s => rfl
  | null => rfl
  | bool b => rfl
  | num n => rfl
  | ref address =>
      simp only [hasLengthOne, h.cell?_extends extends_]

theorem getDefaultPowerLevelContent_extends {settings request : Json}
    (hconfig : heap.Holds config settings)
    (hpayload : heap.Holds payload request) (extends_ : larger.Extends heap) :
    getDefaultPowerLevelContent larger config payload =
      getDefaultPowerLevelContent heap config payload := by
  have hinvite : (heap.get? payload "invite").any (hasLengthOne larger) =
      (heap.get? payload "invite").any (hasLengthOne heap) := by
    cases hget : heap.get? payload "invite" with
    | none => rfl
    | some invite =>
        obtain ⟨tree, htree⟩ := hpayload.part hget
        exact hasLengthOne_extends htree extends_
  have htemplate : ∀ name, (heap.get? config "room_permissions").bind
      (larger.get? · name) =
        (heap.get? config "room_permissions").bind (heap.get? · name) := by
    intro name
    cases hget : heap.get? config "room_permissions" with
    | none => rfl
    | some permissions =>
        obtain ⟨tree, htree⟩ := hconfig.part hget
        exact htree.get?_extends extends_ name
  simp only [getDefaultPowerLevelContent, hconfig.get?_extends extends_,
    hpayload.get?_extends extends_, hinvite, htemplate]

theorem sendCreateRoom_level {settings request : Json}
    (hconfig : heap.Holds config settings)
    (hpayload : heap.Holds payload request)
    (h : sendCreateRoom config payload roomOwner heap =
      some (body, level, after)) :
    (level.isSome = true ↔
      ∃ template, getDefaultPowerLevelContent heap config payload =
        some template ∧ template.truthy = true) ∧
    ∀ value ∈ level, ∃ tree, after.Holds value tree := by
  simp only [sendCreateRoom, prepareCreateRoomBody, Option.bind_eq_bind,
    Option.bind_eq_some_iff, Prod.exists] at h
  obtain ⟨prepared, between, ⟨copy, copied, hclone, hprepared⟩, text, _,
    hsent⟩ := h
  obtain ⟨hcopied, _⟩ := deepClone_eq_some hclone
  rw [getDefaultPowerLevelContent_extends hconfig hpayload hcopied] at hprepared
  simp only [Option.some.injEq, Prod.mk.injEq] at hsent
  obtain ⟨_, rfl, rfl⟩ := hsent
  split at hprepared
  · rename_i hnone
    cases hprepared
    refine ⟨⟨fun h => absurd h Bool.false_ne_true, ?_⟩,
      fun value h => absurd h (Option.not_mem_none value)⟩
    rintro ⟨template, hdefault, htruthy⟩
    rw [hdefault, Option.filter_some, if_pos htruthy] at hnone
    cases hnone
  · rename_i template hsome
    simp only [Option.bind_eq_some_iff, Prod.exists, Option.some.injEq,
      Prod.mk.injEq] at hprepared
    obtain ⟨current, level, last, hinitial, rfl, rfl⟩ := hprepared
    obtain ⟨hdefault, htruthy⟩ := Option.filter_eq_some_iff.mp hsome
    obtain ⟨tree, htree⟩ := initialPowerLevels_level hinitial
    refine ⟨⟨fun _ => ⟨template, hdefault, htruthy⟩, fun _ => rfl⟩, ?_⟩
    intro value hvalue
    cases hvalue
    exact ⟨tree, htree.extends (.new _ _)⟩

/-- The response of the homeserver is passed on exactly if nothing fails that
follows it. -/
theorem finishCreate_isSome {response : HttpResponse}
    (holds : ∀ value ∈ level, ∃ tree, heap.Holds value tree)
    (ok : response.ok = true) :
    (finishCreate homeserver roomOwner level heap response).isSome = true ↔
      (∃ room, response.json? = some room ∧
        (roomIdText room).isSome = true) ∧
      (level.isSome = true → Demotes homeserver) := by
  have hdemotes : ∀ value ∈ level,
      ((demoteRoomOwner homeserver roomOwner value heap).isSome = true ↔
        Demotes homeserver) := by
    intro value hvalue
    obtain ⟨tree, htree⟩ := holds value hvalue
    exact demoteRoomOwner_isSome htree
  unfold finishCreate
  rw [ok, Bool.not_true, if_neg Bool.false_ne_true]
  cases hjson : response.json? with
  | none => simp
  | some room =>
      cases hroom : roomIdText room with
      | none => simp [hroom]
      | some text =>
          cases level with
          | none => simp [hroom]
          | some value =>
              have hvalue := hdemotes value rfl
              cases hdemote : demoteRoomOwner homeserver roomOwner value
                  heap with
              | none =>
                  rw [hdemote] at hvalue
                  simpa [hroom, hdemote] using hvalue
              | some done =>
                  rw [hdemote] at hvalue
                  simpa [hroom, hdemote] using hvalue

theorem eq_of_finishCreate {response result : HttpResponse}
    (h : finishCreate homeserver roomOwner level heap response =
      some result) : result = response := by
  unfold finishCreate at h
  split at h
  · split at h
    · exact (Option.some.inj h).symm
    · cases h
  · simp only [Option.bind_eq_bind, Option.bind_eq_some_iff] at h
    obtain ⟨_, _, _, _, h⟩ := h
    split at h
    · exact (Option.some.inj h).symm
    · simp only [Option.bind_eq_some_iff] at h
      obtain ⟨_, _, h⟩ := h
      exact (Option.some.inj h).symm

/-- The status that is sent for what the service returns. -/
def statusOf (operation : HttpResponse) : Nat :=
  match operation.json? with
  | none => 500
  | some _ => operation.status

theorem createRoom_unsent (h : sentRequest service req heap = none) :
    succeeded (createRoom service homeserver req heap) = false := by
  unfold sentRequest at h
  unfold createRoom
  split
  · rfl
  · rename_i hauthorization
    dsimp only
    split
    · rfl
    · rename_i howner
      by_cases hbody : req.body = .null
      · simp only [Service.create, hbody, if_true]
        rfl
      · rw [if_neg (by tauto)] at h
        simp only [Service.create, hbody, if_false, h]
        rfl

theorem createRoom_sent
    (h : sentRequest service req heap = some (body, level, after)) :
    createRoom service homeserver req heap =
      statusOf ((homeserver.createRoom.bind (finishCreate homeserver
        (req.userId.getD "") level after)).getD internalError) := by
  unfold sentRequest at h
  split at h
  · cases h
  · rename_i hsent
    simp only [not_or] at hsent
    obtain ⟨hauthorization, howner, hbody⟩ := hsent
    unfold createRoom
    rw [if_neg hauthorization]
    dsimp only
    rw [if_neg howner]
    simp only [Service.create, hbody, if_false, h]
    rfl

theorem succeeded_statusOf {result : Option HttpResponse}
    (h : succeeded (statusOf (result.getD internalError)) = true) :
    ∃ response, result = some response ∧ response.ok = true := by
  cases result with
  | none => cases h
  | some response =>
      refine ⟨response, rfl, ?_⟩
      unfold statusOf at h
      rw [Option.getD_some] at h
      split at h
      · cases h
      · exact h

theorem sentRequest_level {settings request : Json}
    (hconfig : heap.Holds service.config settings)
    (hbody : heap.Holds req.body request)
    (h : sentRequest service req heap = some (body, level, after)) :
    (level.isSome = true ↔ HasTemplate service req heap) ∧
      ∀ value ∈ level, ∃ tree, after.Holds value tree := by
  unfold sentRequest at h
  split at h
  · cases h
  · unfold Service.request at h
    split at h
    · cases h
    · rename_i sent hsend
      split at h
      · cases h
        exact sendCreateRoom_level hconfig hbody hsend
      · cases h

theorem succeeded_iff
    (h : sentRequest service req heap = some (body, level, after)) :
    succeeded (createRoom service homeserver req heap) = true ↔
      ∃ response, homeserver.createRoom = some response ∧
        response.ok = true ∧
        (finishCreate homeserver (req.userId.getD "") level after
          response).isSome = true ∧ response.json?.isSome = true := by
  rw [createRoom_sent h]
  constructor
  · intro hsucceeded
    obtain ⟨result, hresult, hok⟩ := succeeded_statusOf hsucceeded
    obtain ⟨response, hcreate, hfinish⟩ := Option.bind_eq_some_iff.mp hresult
    obtain rfl := eq_of_finishCreate hfinish
    refine ⟨result, hcreate, hok, by rw [hfinish]; rfl, ?_⟩
    rw [hresult, Option.getD_some, statusOf] at hsucceeded
    cases hjson : result.json? with
    | none =>
        rw [hjson] at hsucceeded
        cases hsucceeded
    | some value => rfl
  · intro ⟨response, hcreate, hok, hfinish, hjson⟩
    obtain ⟨result, hfinish⟩ := Option.isSome_iff_exists.mp hfinish
    obtain rfl := eq_of_finishCreate hfinish
    obtain ⟨value, hjson⟩ := Option.isSome_iff_exists.mp hjson
    rw [hcreate, Option.bind_some, hfinish, Option.getD_some, statusOf, hjson]
    exact hok

end Sent

/-- The status is a success exactly if a room has been created, when nothing
fails once it has been. -/
theorem createRoom_reports_iff {service : Service} {req : Request}
    {heap : Heap} {settings request : Json}
    (config : heap.Holds service.config settings)
    (body : heap.Holds req.body request) (homeserver : Homeserver) :
    (succeeded (createRoom service homeserver req heap) = true ↔
      created service homeserver req heap = true) ↔
    (created service homeserver req heap = true →
      Concludes service homeserver req heap) := by
  cases hsent : sentRequest service req heap with
  | none =>
      have hcreated : created service homeserver req heap = false := by
        unfold created
        rw [hsent]
        rfl
      rw [createRoom_unsent hsent, hcreated]
      simp
  | some sent =>
      obtain ⟨text, level, after⟩ := sent
      obtain ⟨htemplate, hlevel⟩ := sentRequest_level config body hsent
      rw [succeeded_iff hsent, created, hsent, Option.isSome_some,
        Bool.true_and]
      cases hcreate : homeserver.createRoom with
      | none =>
          have hunknown : ¬ Concludes service homeserver req heap := by
            intro ⟨⟨response, _, hanswer, _⟩, _⟩
            rw [hcreate] at hanswer
            cases hanswer
          simp [hunknown]
      | some response =>
          cases hok : response.ok with
          | false => simp [hok]
          | true =>
              have hfinish := @finishCreate_isSome homeserver after
                (req.userId.getD "") level response hlevel hok
              have hconcludes : Concludes service homeserver req heap ↔
                  (∃ room, response.json? = some room ∧
                    (roomIdText room).isSome = true) ∧
                  (HasTemplate service req heap → Demotes homeserver) := by
                constructor
                · intro ⟨⟨other, room, hanswer, hjson, hroom⟩, hdemoted⟩
                  rw [hcreate, Option.some.injEq] at hanswer
                  subst hanswer
                  exact ⟨⟨room, hjson, hroom⟩, hdemoted⟩
                · intro ⟨⟨room, hjson, hroom⟩, hdemoted⟩
                  exact ⟨⟨response, room, hcreate, hjson, hroom⟩, hdemoted⟩
              rw [htemplate] at hfinish
              rw [hconcludes, ← hfinish]
              simp only [Option.some.injEq, exists_eq_left', hok, true_and,
                iff_true, forall_const, and_iff_left_iff_imp]
              intro hsome
              obtain ⟨⟨room, hjson, _⟩, _⟩ := hfinish.mp hsome
              rw [hjson]
              rfl

/-! Alice's room exists, but its power levels cannot be read. -/

def aliceBody : Json := .obj [("invite", .arr [.str "@bob:twake.app"])]

def aliceHeap : Heap := (parse aliceBody (parse smallConfig ⟨[]⟩).2).2

def aliceService : Service where
  config := (parse smallConfig ⟨[]⟩).1

def aliceRequest : Request where
  authorization := some "Bearer token"
  userId := some "@alice:twake.app"
  body := (parse aliceBody (parse smallConfig ⟨[]⟩).2).1

def roomAnswer : HttpResponse where
  status := 200
  body := .json (.obj [("room_id", .str "!room:twake.app")])

def unreadLevels : Homeserver where
  createRoom := some roomAnswer
  getPowerLevels := some ⟨500, .text⟩
  putPowerLevels := none

theorem unreadLevels_reports_iff :
    (succeeded (createRoom aliceService unreadLevels aliceRequest aliceHeap) =
        true ↔
      created aliceService unreadLevels aliceRequest aliceHeap = true) ↔
    (created aliceService unreadLevels aliceRequest aliceHeap = true →
      Concludes aliceService unreadLevels aliceRequest aliceHeap) :=
  have hbody := parse_spec aliceBody (parse smallConfig ⟨[]⟩).2
  createRoom_reports_iff
    ((parse_spec smallConfig ⟨[]⟩).holds.extends hbody.extends_) hbody.holds
    unreadLevels

theorem created_room_reported_failed :
    createRoom aliceService unreadLevels aliceRequest aliceHeap = 500 ∧
      ¬ (succeeded
          (createRoom aliceService unreadLevels aliceRequest aliceHeap) =
            true ↔
        created aliceService unreadLevels aliceRequest aliceHeap = true) := by
  have hstatus : createRoom aliceService unreadLevels aliceRequest aliceHeap =
      500 := by decide
  have hcreated : created aliceService unreadLevels aliceRequest aliceHeap =
      true := by decide
  refine ⟨hstatus, ?_⟩
  rw [hstatus, hcreated]
  decide

end TwakeKickstart.TomServer.CreateRoom
