import TwakeKickstart.TomServer.MatrixApi.CreateRoom

namespace TwakeKickstart.TomServer.CreateRoom

open Library Heap

/-! The power levels that a room is created with, and the configuration that
they are made of, over any sequence of requests. -/

/-! What a template says. -/

inductive RoomKind where
  | directChat
  | publicGroupChat
  | privateGroupChat

def RoomKind.field : RoomKind → String
  | .directChat => "direct_chat"
  | .publicGroupChat => "public_group_chat"
  | .privateGroupChat => "private_group_chat"

abbrev Template := List (String × Json)

abbrev Permissions := RoomKind → Template

def isPublicChat : Option Json → Bool
  | some (.str preset) => preset == "public_chat"
  | _ => false

/-- The kind of room that a request asks for. -/
def roomKind (invite : List String) (preset : Option Json) : RoomKind :=
  if invite.length = 1 then .directChat
  else if isPublicChat preset then .publicGroupChat
  else .privateGroupChat

def Template.users (template : Template) : List (String × Json) :=
  match template.lookup "users" with
  | some (.obj users) => users
  | _ => []

def orZero : Option Json → Json
  | none => .num 0
  | some .null => .num 0
  | some level => level

def Template.usersDefault (template : Template) : Json :=
  orZero (template.lookup "users_default")

/-- The field `users`, if there is one, maps users to levels. -/
def Template.Typed (template : Template) : Prop :=
  ∀ value, template.lookup "users" = some value →
    value = .null ∨ ∃ users, value = .obj users

/-- Matrix IDs start with their sigil. -/
def IsMatrixId (id : String) : Prop := ∃ rest, id.toList = '@' :: rest

/-- What the content that is sent has to say. -/
structure PowerLevelLaw (template : Template) (roomOwner : String)
    (invited : List String) (content : List (String × Json)) : Prop where
  users : ∃ users, content.lookup "users" = some (.obj users) ∧
    users.lookup roomOwner = some (.num 100) ∧
    (∀ id ∈ invited, id ≠ roomOwner → template.users.lookup id = none →
      users.lookup id = some template.usersDefault) ∧
    (∀ id level, id ≠ roomOwner → template.users.lookup id = some level →
      users.lookup id = some level) ∧
    ∀ id, id ≠ roomOwner → id ∉ invited → template.users.lookup id = none →
      users.lookup id = none
  kept : ∀ name, name ≠ "users" → name ≠ "creator_becomes" →
    content.lookup name = template.lookup name
  creator : content.lookup "creator_becomes" = none

/-! The content, as a function of the template, the owner and the invited
users. -/

def newcomers (template : Template) (invited : List String) : List String :=
  invited.filter fun id => id ∉ template.users.map Prod.fst

def Template.levels (template : Template) (roomOwner : String)
    (invited : List String) : List (String × Json) :=
  (newcomers template invited).foldl (fun users id =>
    Fields.put users id
      (if id = roomOwner then .num 100 else template.usersDefault))
    (Fields.put template.users roomOwner (.num 100))

def Template.content (template : Template) (roomOwner : String)
    (invited : List String) : List (String × Json) :=
  Fields.put (Fields.remove template "creator_becomes") "users"
    (.obj (template.levels roomOwner invited))

theorem lookup_levels (template : Template) (roomOwner : String)
    (invited : List String) (id : String) :
    (template.levels roomOwner invited).lookup id =
      if id = roomOwner then some (.num 100)
      else if id ∈ newcomers template invited then some template.usersDefault
      else template.users.lookup id := by
  rw [Template.levels, Fields.lookup_foldl_put, Fields.lookup_put]
  by_cases howner : id = roomOwner
  · simp [howner]
  · simp [howner]

theorem mem_newcomers {template : Template} {invited : List String}
    {id : String} :
    id ∈ newcomers template invited ↔
      id ∈ invited ∧ template.users.lookup id = none := by
  rw [newcomers, List.mem_filter, Fields.lookup_eq_none_iff,
    decide_eq_true_eq]

theorem content_law (template : Template) (roomOwner : String)
    (invited : List String) :
    PowerLevelLaw template roomOwner invited
      (template.content roomOwner invited) where
  users := by
    refine ⟨template.levels roomOwner invited, ?_, ?_, ?_, ?_, ?_⟩
    · rw [Template.content, Fields.lookup_put, if_pos rfl]
    · rw [lookup_levels, if_pos rfl]
    · intro id hinvited howner hnew
      rw [lookup_levels, if_neg howner,
        if_pos (mem_newcomers.mpr ⟨hinvited, hnew⟩)]
    · intro id level howner hnamed
      have hknown : id ∉ newcomers template invited := by
        rw [mem_newcomers, hnamed]
        simp
      rw [lookup_levels, if_neg howner, if_neg hknown, hnamed]
    · intro id howner huninvited hnew
      have hother : id ∉ newcomers template invited :=
        fun h => huninvited (mem_newcomers.mp h).1
      rw [lookup_levels, if_neg howner, if_neg hother, hnew]
  kept := by
    intro name husers hcreator
    rw [Template.content, Fields.lookup_put, if_neg husers,
      Fields.lookup_remove, if_neg hcreator]
  creator := by
    rw [Template.content, Fields.lookup_put, if_neg (by decide),
      Fields.lookup_remove, if_pos rfl]

/-! The heap of a request. -/

/-- The templates of a configuration. -/
def Configured (heap : Heap) (config : Value) (permissions : Permissions) :
    Prop :=
  ∃ holder, heap.get? config "room_permissions" = some holder ∧
    ∀ kind : RoomKind, ∃ template, heap.get? holder kind.field =
      some template ∧ heap.Holds template (.obj (permissions kind))

section Reading

variable {heap before : Heap} {config payload value : Value}
  {permissions : Permissions} {body : List (String × Json)}
  {ids : List String}

theorem Configured.extends (h : Configured before config permissions)
    (extends_ : heap.Extends before) : Configured heap config permissions := by
  obtain ⟨holder, hholder, htemplates⟩ := h
  refine ⟨holder, extends_.get? hholder, fun kind => ?_⟩
  obtain ⟨template, hget, hholds⟩ := htemplates kind
  exact ⟨template, extends_.get? hget, hholds.extends extends_⟩

theorem eq_map_str {items : List Value}
    (h : List.Forall₂ heap.Holds items (ids.map .str)) :
    items = ids.map .str := by
  induction ids generalizing items with
  | nil => exact List.forall₂_nil_right_iff.mp h
  | cons id rest ih =>
      obtain ⟨item, others, hitem, hothers, rfl⟩ :=
        List.forall₂_cons_right_iff.mp h
      rw [hitem.eq_str, ih hothers]
      rfl

theorem cell_of_texts (h : heap.Holds value (.arr (ids.map .str))) :
    heap.cell? value = some (.array (ids.map .str)) ∧
      ∃ address, value = .ref address := by
  obtain ⟨address, items, rfl, hcell, hall⟩ := h.array
  rw [eq_map_str hall] at hcell
  exact ⟨hcell, address, rfl⟩

theorem hasLengthOne_texts (h : heap.Holds value (.arr (ids.map .str))) :
    hasLengthOne heap value = (ids.length == 1) := by
  obtain ⟨hcell, address, rfl⟩ := cell_of_texts h
  simp only [hasLengthOne, hcell, List.length_map]

theorem arrayItems_texts (h : heap.Holds value (.arr (ids.map .str))) :
    arrayItems heap value = ids.map .str := by
  simp only [arrayItems, (cell_of_texts h).1]

theorem preset_iff (h : heap.Holds payload (.obj body)) :
    heap.get? payload "preset" = some (.str "public_chat") ↔
      isPublicChat (body.lookup "preset") = true := by
  cases hlookup : body.lookup "preset" with
  | none =>
      rw [h.get?_none hlookup]
      simp [isPublicChat]
  | some tree =>
      obtain ⟨part, hget, hholds⟩ := h.get? hlookup
      rw [hget, Option.some.injEq]
      constructor
      · rintro rfl
        rw [hholds.unique holds_str]
        rfl
      · intro hpublic
        cases tree with
        | str preset =>
            rw [hholds.eq_str, beq_iff_eq.mp hpublic]
        | null => cases hpublic
        | bool b => cases hpublic
        | num n => cases hpublic
        | arr items => cases hpublic
        | obj fields => cases hpublic

theorem getDefaultPowerLevelContent_spec
    (configured : Configured heap config permissions)
    (h : heap.Holds payload (.obj body))
    (invite : body.lookup "invite" = some (.arr (ids.map .str))) :
    ∃ template, getDefaultPowerLevelContent heap config payload =
        some template ∧
      heap.Holds template
        (.obj (permissions (roomKind ids (body.lookup "preset")))) := by
  obtain ⟨holder, hholder, htemplates⟩ := configured
  obtain ⟨invited, hget, hinvited⟩ := h.get? invite
  obtain ⟨template, htemplate, hholds⟩ :=
    htemplates (roomKind ids (body.lookup "preset"))
  refine ⟨template, ?_, hholds⟩
  rw [← htemplate]
  simp only [getDefaultPowerLevelContent, hholder, Option.bind_some, hget,
    Option.any_some, hasLengthOne_texts hinvited, beq_iff_eq, preset_iff h]
  unfold roomKind
  split
  · rfl
  · split
    · rfl
    · rfl

end Reading

/-! The copy of a template, and what is made of it. -/

section Copying

variable {base copied : Heap} {fields : List (String × Value)}
  {template : Template} {ids : List String} {roomOwner : String}

/-- The heap after `creator_becomes` has been deleted from the copy. -/
def cleared (base : Heap) (fields : List (String × Value)) : Heap :=
  (base.new (.object fields)).2.delete (.ref base.cells.length)
    "creator_becomes"

theorem cleared_extends : (cleared base fields).Extends base :=
  Extends.modify (.new base _) (Nat.le_refl _)

theorem cell_cleared : (cleared base fields).cells[base.cells.length]? =
    some (.object (Fields.remove fields "creator_becomes")) :=
  cell_modify (cell_new base _)

theorem get?_cleared {key : String} (ne : key ≠ "creator_becomes") :
    (cleared base fields).get? (.ref base.cells.length) key =
      fields.lookup key := by
  rw [get?_ref cell_cleared, Fields.lookup_remove, if_neg ne]

theorem explicitUsers_cleared (typed : template.Typed)
    (h : base.HoldsFields fields template) :
    base.HoldsFields
      (explicitUsers (cleared base fields) (.ref base.cells.length))
      template.users := by
  rw [explicitUsers, get?_cleared (by decide), Template.users]
  cases hlookup : template.lookup "users" with
  | none =>
      rw [h.lookup_none hlookup]
      exact .nil
  | some tree =>
      obtain ⟨value, hvalue, hholds⟩ := h.exists_lookup hlookup
      rw [hvalue]
      rcases typed tree hlookup with rfl | ⟨users, rfl⟩
      · rw [hholds.eq_null]
        exact .nil
      · obtain ⟨address, cells, rfl, hcell, hall⟩ := hholds.object
        have hkept := (@cleared_extends base fields).cell hcell
        simp only [Value.truthy, if_true, ownFields, cell?, hkept]
        exact hall

theorem holds_orElse {value : Option Value} {tree : Option Json}
    (h : Option.Rel base.Holds value tree) :
    base.Holds (orElse value (.num 0)) (orZero tree) := by
  cases h with
  | none => exact holds_num
  | @some value tree hvalue =>
      cases value with
      | null =>
          rw [hvalue.unique holds_null]
          exact holds_num
      | bool b =>
          rw [hvalue.unique holds_bool]
          exact holds_bool
      | num n =>
          rw [hvalue.unique holds_num]
          exact holds_num
      | str s =>
          rw [hvalue.unique holds_str]
          exact holds_str
      | ref address =>
          rcases hvalue.cell with ⟨_, _, _, rfl, _⟩ | ⟨_, _, _, rfl, _⟩
          · exact hvalue
          · exact hvalue

theorem usersDefault_cleared (h : base.HoldsFields fields template) :
    base.Holds
      (orElse ((cleared base fields).get? (.ref base.cells.length)
        "users_default") (.num 0)) template.usersDefault := by
  rw [get?_cleared (by decide), Template.usersDefault]
  exact holds_orElse (h.lookup _)

theorem not_inherited {id : String} (h : IsMatrixId id) :
    id ∉ IdentityServer.inheritedMembers := by
  obtain ⟨rest, hrest⟩ := h
  intro hmem
  have hnone : ∀ name ∈ IdentityServer.inheritedMembers,
      name.toList.head? ≠ some '@' := by decide
  exact hnone id hmem (by rw [hrest]; rfl)

theorem newUsers_texts {heap : Heap} {initialUsers : List (String × Value)}
    (ids_ : ∀ id ∈ ids, IsMatrixId id)
    (names : initialUsers.map Prod.fst = template.users.map Prod.fst) :
    newUsers heap initialUsers (ids.map .str) =
      some ((newcomers template ids).map fun id => (.str id, id)) := by
  induction ids with
  | nil => rfl
  | cons id rest ih =>
      have hrest := ih fun other h => ids_ other (List.mem_cons_of_mem _ h)
      have hplain := not_inherited (ids_ id List.mem_cons_self)
      have htext : heap.stringify (.str id) = some (.str id) := read_str
      rw [List.map_cons, newUsers, htext, hrest, names]
      simp only [Option.bind_eq_bind, Option.bind_some, text?, hplain,
        or_false, newcomers, List.filter_cons]
      by_cases hnamed : id ∈ template.users.map Prod.fst
      · simp only [hnamed, not_true_eq_false, decide_false,
          Bool.false_eq_true, if_true, if_false]
      · simp only [hnamed, not_false_eq_true, decide_true, if_true, if_false,
          List.map_cons]

theorem updatedUsers_texts {usersDefault : Value}
    {initialUsers : List (String × Value)}
    (users : base.HoldsFields initialUsers template.users)
    (level : base.Holds usersDefault template.usersDefault) :
    base.HoldsFields
      (updatedUsers roomOwner usersDefault initialUsers
        ((newcomers template ids).map fun id => (.str id, id)))
      (template.levels roomOwner ids) := by
  unfold updatedUsers Template.levels
  rw [List.foldl_map]
  have hstart : base.HoldsFields
      (Fields.put initialUsers roomOwner (.num 100))
      (Fields.put template.users roomOwner (.num 100)) :=
    users.put roomOwner holds_num
  revert hstart
  generalize Fields.put initialUsers roomOwner (.num 100) = values
  generalize Fields.put template.users roomOwner (.num 100) = trees
  generalize newcomers template ids = added
  intro hstart
  induction added generalizing values trees with
  | nil => exact hstart
  | cons id rest ih =>
      rw [List.foldl_cons, List.foldl_cons]
      refine ih _ _ (hstart.put id ?_)
      by_cases howner : id = roomOwner
      · simp only [howner, if_true]
        exact holds_num
      · simp only [howner, Value.str.injEq, if_false]
        exact level

/-- The heap after the users have been put into the copy. -/
def levelled (base : Heap) (fields users : List (String × Value)) : Heap :=
  ((cleared base fields).new (.object users)).2.set (.ref base.cells.length)
    "users" (.ref (cleared base fields).cells.length)

theorem levelled_extends {users : List (String × Value)} :
    (levelled base fields users).Extends base :=
  Extends.modify ((Extends.new _ _).trans cleared_extends) (Nat.le_refl _)

theorem holds_levelled {users : List (String × Value)}
    (h : base.HoldsFields fields template)
    (levels : base.HoldsFields users (template.levels roomOwner ids)) :
    (levelled base fields users).Holds (.ref base.cells.length)
      (.obj (template.content roomOwner ids)) := by
  have hlength := (List.getElem?_eq_some_iff.mp
    (@cell_cleared base fields)).1
  have hkept : ((cleared base fields).new (.object users)).2.cells[
      base.cells.length]? =
        some (.object (Fields.remove fields "creator_becomes")) :=
    (Extends.new _ _).cell cell_cleared
  have hcell : (levelled base fields users).cells[base.cells.length]? =
      some (.object (Fields.put (Fields.remove fields "creator_becomes")
        "users" (.ref (cleared base fields).cells.length))) :=
    cell_modify hkept
  have husers : (levelled base fields users).cells[
      (cleared base fields).cells.length]? = some (.object users) :=
    (cell_modify_ne hlength.ne).trans (cell_new _ _)
  have hlevels : (levelled base fields users).Holds
      (.ref (cleared base fields).cells.length)
      (.obj (template.levels roomOwner ids)) :=
    (holds_object husers).mpr ⟨_, rfl, levels.extends levelled_extends⟩
  refine (holds_object hcell).mpr ⟨_, rfl, ?_⟩
  have hfields : (levelled base fields users).HoldsFields fields template :=
    h.extends levelled_extends
  exact (hfields.remove _).put _ hlevels

end Copying

section Sending

variable {heap after : Heap} {config payload default current level : Value}
  {permissions : Permissions} {template : Template} {body : Template}
  {ids : List String} {roomOwner : String}

theorem initialPowerLevels_spec (typed : template.Typed)
    (holds : heap.Holds default (.obj template))
    (request : heap.Holds payload (.obj body))
    (invite : body.lookup "invite" = some (.arr (ids.map .str)))
    (ids_ : ∀ id ∈ ids, IsMatrixId id) :
    ∃ current level after, initialPowerLevels default payload roomOwner heap =
        some (current, level, after) ∧ after.Extends heap ∧
      after.Holds current (.obj (template.content roomOwner ids)) := by
  obtain ⟨base, fields, hbase, hfields, hclone⟩ := deepClone_object holds
  have hinitial := explicitUsers_cleared typed hfields
  have hdefault := usersDefault_cleared hfields
  obtain ⟨invited, hget, hinvited⟩ := (request.extends
    ((@cleared_extends base fields).trans hbase)).get? invite
  have hnew := @newUsers_texts template ids (cleared base fields) _ ids_
    hinitial.names
  have hlevels := @updatedUsers_texts base template ids roomOwner _ _
    hinitial hdefault
  have hcell : ((cleared base fields).cell?
      (.ref base.cells.length)).isNone = false := by
    simp only [cell?, cell_cleared, Option.isNone_some]
  refine ⟨.ref base.cells.length, (extractCreatorBecomes
    (.ref base.cells.length) (base.new (.object fields)).2).1,
    levelled base fields _, ?_, levelled_extends.trans hbase,
    holds_levelled hfields hlevels⟩
  have hcleared : (extractCreatorBecomes (.ref base.cells.length)
      (base.new (.object fields)).2).2 = cleared base fields := rfl
  have hcopy : (base.new (.object fields)).1 = .ref base.cells.length := rfl
  simp only [initialPowerLevels, hclone, Option.bind_eq_bind,
    Option.bind_some, hcleared, hcopy, hget, Option.map_some,
    Option.getD_some, arrayItems_texts hinvited, hnew, hcell,
    Bool.false_eq_true, if_false]
  rfl

theorem sendCreateRoom_spec (configured : Configured heap config permissions)
    (typed : ∀ kind, Template.Typed (permissions kind))
    (request : heap.Holds payload (.obj body))
    (invite : body.lookup "invite" = some (.arr (ids.map .str)))
    (ids_ : ∀ id ∈ ids, IsMatrixId id) :
    ∃ level after, sendCreateRoom config payload roomOwner heap =
      some (.obj (Fields.put body "power_level_content_override"
        (.obj (Template.content
          (permissions (roomKind ids (body.lookup "preset"))) roomOwner ids))),
        some level, after) := by
  obtain ⟨base, fields, hbase, hfields, hclone⟩ := deepClone_object request
  have hcopied : (base.new (.object fields)).2.Extends heap :=
    (Extends.new base _).trans hbase
  obtain ⟨template, hdefault, htemplate⟩ := getDefaultPowerLevelContent_spec
    (configured.extends hcopied) (request.extends hcopied) invite
  obtain ⟨current, level, after, hinitial, hafter, hcurrent⟩ :=
    @initialPowerLevels_spec _ payload template _ body ids roomOwner (typed _)
      htemplate (request.extends hcopied) invite ids_
  have htruthy : (some template).filter Value.truthy = some template := by
    obtain ⟨address, _, rfl, _⟩ := htemplate.object
    rfl
  have hbody : ownFields after (.ref base.cells.length) = fields := by
    simp only [ownFields, cell?, hafter.cell (cell_new base _)]
  have hsent : (after.new (.object (Fields.put fields
      "power_level_content_override" current))).2.Holds
      (.ref after.cells.length)
      (.obj (Fields.put body "power_level_content_override"
        (.obj (Template.content
          (permissions (roomKind ids (body.lookup "preset"))) roomOwner
            ids)))) := by
    refine (new_object ?_).holds
    have hkept : after.HoldsFields fields body :=
      hfields.extends (hafter.trans (.new base _))
    exact hkept.put _ hcurrent
  refine ⟨level, (after.new (.object (Fields.put fields
    "power_level_content_override" current))).2, ?_⟩
  have hcopy : (base.new (.object fields)).1 = .ref base.cells.length := rfl
  have hnew : (after.new (.object (Fields.put fields
      "power_level_content_override" current))).1 =
    .ref after.cells.length := rfl
  simp only [sendCreateRoom, prepareCreateRoomBody, hclone,
    Option.bind_eq_bind, Option.bind_some, hdefault, htruthy, hinitial, hcopy,
    hbody, hnew, hsent.stringify]

end Sending

/-! What no request changes, whatever its payload. -/

section Frame

variable {heap after : Heap} {config payload default current level : Value}
  {roomOwner : String}

theorem initialPowerLevels_extends
    (h : initialPowerLevels default payload roomOwner heap =
      some (current, level, after)) : after.Extends heap := by
  simp only [initialPowerLevels, Option.bind_eq_bind,
    Option.bind_eq_some_iff, Prod.exists] at h
  obtain ⟨copy, copied, hclone, invited, _, h⟩ := h
  obtain ⟨hcopied, hfresh, _⟩ := deepClone_eq_some hclone
  split at h
  · cases h
  · simp only [Option.some.injEq, Prod.mk.injEq] at h
    obtain ⟨rfl, _, rfl⟩ := h
    exact Extends.modify_fresh ((Extends.new _ _).trans
      (hcopied.modify_fresh hfresh)) hfresh

theorem sendCreateRoom_extends {body : Json} {level : Option Value}
    (h : sendCreateRoom config payload roomOwner heap =
      some (body, level, after)) : after.Extends heap := by
  simp only [sendCreateRoom, prepareCreateRoomBody, Option.bind_eq_bind,
    Option.bind_eq_some_iff, Prod.exists] at h
  obtain ⟨prepared, between, ⟨copy, copied, hclone, hprepared⟩, text, _,
    hsent⟩ := h
  obtain ⟨hcopied, _⟩ := deepClone_eq_some hclone
  simp only [Option.some.injEq, Prod.mk.injEq] at hsent
  obtain ⟨_, _, rfl⟩ := hsent
  split at hprepared
  · cases hprepared
    exact hcopied
  · simp only [Option.bind_eq_some_iff, Prod.exists, Option.some.injEq,
      Prod.mk.injEq] at hprepared
    obtain ⟨current, level, last, hinitial, _, rfl⟩ := hprepared
    exact (Extends.new _ _).trans
      ((initialPowerLevels_extends hinitial).trans hcopied)

theorem demotionContent_extends {levels content : Json} {powerLevel : Value}
    (h : demotionContent levels roomOwner powerLevel heap =
      some (content, after)) : after.Extends heap := by
  simp only [demotionContent, Option.bind_eq_bind] at h
  split at h
  · cases h
  · simp only [Option.bind_eq_some_iff, Option.some.injEq, Prod.mk.injEq] at h
    obtain ⟨_, _, _, rfl⟩ := h
    exact (Extends.new _ _).trans ((Extends.new _ _).trans
      (parse_spec levels heap).extends_)

end Frame

/-! Any sequence of requests on one service. -/

/-- The synchronous steps of the requests: one up to the call that creates the
room, and one when the homeserver has answered the power levels of a room. -/
inductive RoomEvent where
  | create (payload : Json) (roomOwner : String)
  | demote (currentPowerLevels : Json) (roomOwner : String)
      (powerLevel : Value)

/-- The step, with the body that it sends.  What a step that throws has
allocated is garbage. -/
def roomStep (config : Value) (heap : Heap) : RoomEvent → Heap × Option Json
  | .create payload roomOwner =>
      let (payload, heap) := parse payload heap
      match sendCreateRoom config payload roomOwner heap with
      | none => (heap, none)
      | some (body, _, heap) => (heap, some body)
  | .demote currentPowerLevels roomOwner powerLevel =>
      match demotionContent currentPowerLevels roomOwner powerLevel heap with
      | none => (heap, none)
      | some (content, heap) => (heap, some content)

/-- The steps one after the other, with what each has sent. -/
def roomRun (config : Value) (heap : Heap) :
    List RoomEvent → Heap × List (Option Json)
  | [] => (heap, [])
  | event :: rest =>
      let (heap, sent) := roomStep config heap event
      let (heap, others) := roomRun config heap rest
      (heap, sent :: others)

/-- A request for Matrix IDs sends the content of its template, whatever the
client has put in its place. -/
def Obeys (permissions : Permissions) :
    RoomEvent → Option Json → Prop
  | .create (.obj body) roomOwner, sent =>
      ∀ ids : List String, body.lookup "invite" =
        some (.arr (ids.map .str)) → (∀ id ∈ ids, IsMatrixId id) →
        ∃ fields, sent = some (.obj fields) ∧
          fields.lookup "power_level_content_override" =
            some (.obj (Template.content
              (permissions (roomKind ids (body.lookup "preset"))) roomOwner
                ids)) ∧
          PowerLevelLaw (permissions (roomKind ids (body.lookup "preset")))
            roomOwner ids (Template.content
              (permissions (roomKind ids (body.lookup "preset"))) roomOwner
                ids)
  | _, _ => True

section Run

variable {heap : Heap} {config : Value} {permissions : Permissions}

theorem roomStep_extends (event : RoomEvent) :
    (roomStep config heap event).1.Extends heap := by
  cases event with
  | create payload roomOwner =>
      have hparsed := (parse_spec payload heap).extends_
      unfold roomStep
      dsimp only
      cases hsend : sendCreateRoom config (parse payload heap).1 roomOwner
          (parse payload heap).2 with
      | none => exact hparsed
      | some sent =>
          obtain ⟨body, level, after⟩ := sent
          exact (sendCreateRoom_extends hsend).trans hparsed
  | demote levels roomOwner powerLevel =>
      cases hcontent : demotionContent levels roomOwner powerLevel heap with
      | none =>
          simp only [roomStep, hcontent]
          exact .refl heap
      | some sent =>
          obtain ⟨content, after⟩ := sent
          simp only [roomStep, hcontent]
          exact demotionContent_extends hcontent

theorem roomStep_obeys (configured : Configured heap config permissions)
    (typed : ∀ kind, Template.Typed (permissions kind)) (event : RoomEvent) :
    Obeys permissions event (roomStep config heap event).2 := by
  cases event with
  | demote levels roomOwner powerLevel => exact True.intro
  | create payload roomOwner =>
      cases payload with
      | obj body =>
          intro ids hinvite hids
          have hparsed := parse_spec (.obj body) heap
          obtain ⟨level, after, hsend⟩ := @sendCreateRoom_spec _ config _
            permissions body ids roomOwner
            (configured.extends hparsed.extends_) typed hparsed.holds hinvite
            hids
          refine ⟨Fields.put body "power_level_content_override"
            (.obj (Template.content
              (permissions (roomKind ids (body.lookup "preset"))) roomOwner
                ids)), ?_, ?_, content_law _ _ _⟩
          · simp only [roomStep, hsend]
          · rw [Fields.lookup_put, if_pos rfl]
      | null => exact True.intro
      | bool b => exact True.intro
      | num n => exact True.intro
      | str s => exact True.intro
      | arr items => exact True.intro

/-- Nothing that was on the heap is changed, the configuration with it, and
each request of the run sends what it would send first. -/
theorem roomRun_obeys (configured : Configured heap config permissions)
    (typed : ∀ kind, Template.Typed (permissions kind))
    (events : List RoomEvent) :
    (roomRun config heap events).1.Extends heap ∧
      List.Forall₂ (Obeys permissions) events
        (roomRun config heap events).2 := by
  induction events generalizing heap with
  | nil => exact ⟨.refl heap, .nil⟩
  | cons event rest ih =>
      have hstep := @roomStep_extends heap config event
      obtain ⟨hextends, hrest⟩ := ih (configured.extends hstep)
      exact ⟨hextends.trans hstep,
        .cons (roomStep_obeys configured typed event) hrest⟩

end Run

/-! A small configuration. -/

def smallPermissions : Permissions
  | .directChat => [("users_default", .num 10), ("creator_becomes", .num 10)]
  | .publicGroupChat => [("users_default", .num 10), ("invite", .num 0)]
  | .privateGroupChat => [("users", .obj [("@bot:twake.app", .num 50)])]

def smallConfig : Json :=
  .obj [("room_permissions",
    .obj [("direct_chat", .obj (smallPermissions .directChat)),
      ("public_group_chat", .obj (smallPermissions .publicGroupChat)),
      ("private_group_chat", .obj (smallPermissions .privateGroupChat))])]

theorem smallConfig_configured :
    Configured (parse smallConfig ⟨[]⟩).2 (parse smallConfig ⟨[]⟩).1
      smallPermissions := by
  have hholds := (parse_spec smallConfig ⟨[]⟩).holds
  obtain ⟨holder, hholder, hpermissions⟩ :=
    @Holds.get? _ _ _ _ hholds "room_permissions" rfl
  refine ⟨holder, hholder, fun kind => ?_⟩
  cases kind with
  | directChat => exact hpermissions.get? rfl
  | publicGroupChat => exact hpermissions.get? rfl
  | privateGroupChat => exact hpermissions.get? rfl

theorem smallPermissions_typed (kind : RoomKind) :
    (smallPermissions kind).Typed := by
  intro value hlookup
  cases kind with
  | directChat => cases hlookup
  | publicGroupChat => cases hlookup
  | privateGroupChat =>
      cases hlookup
      exact .inr ⟨_, rfl⟩

/-- Alice invites Bob with levels of her own, and then Bob and Carol. -/
def aliceRequests : List RoomEvent :=
  [.create (.obj [("invite", .arr [.str "@bob:twake.app"]),
      ("power_level_content_override", .obj [("ban", .num 0)])])
      "@alice:twake.app",
    .create (.obj [("invite", .arr [.str "@bob:twake.app",
      .str "@carol:twake.app"])]) "@alice:twake.app"]

theorem aliceRequests_obey :
    (roomRun (parse smallConfig ⟨[]⟩).1 (parse smallConfig ⟨[]⟩).2
        aliceRequests).1.Extends (parse smallConfig ⟨[]⟩).2 ∧
      List.Forall₂ (Obeys smallPermissions) aliceRequests
        (roomRun (parse smallConfig ⟨[]⟩).1 (parse smallConfig ⟨[]⟩).2
          aliceRequests).2 :=
  roomRun_obeys smallConfig_configured smallPermissions_typed aliceRequests

end TwakeKickstart.TomServer.CreateRoom
