import TwakeKickstart.IdentityServer.Lookup.UpdateHash
import TwakeKickstart.IdentityServer.ThreePid.Bind

namespace TwakeKickstart.IdentityServer

open Library

/-! The hashes that are pushed to a federated identity service, and how the
three producers of hashes compare. -/

def usersHash (env : Environment) (algorithm : HashMethod) (pepper : String)
    (fields : ValueField) (field : Field) : List String :=
  match fields.value field with
  | none => []
  | some value =>
      if value ≠ "" ∧ fields.active = some 1 then
        [algorithm.apply env
          (hashedText (field.format value) field.word pepper)]
      else []

def getUsersHashes (env : Environment) (usersData : UpdatableFields)
    (algorithm : HashMethod) (pepper : String) : List String :=
  usersData.flatMap fun (_, fields) =>
    fieldsToHash.flatMap (usersHash env algorithm pepper fields)

theorem getUsersHashes_eq_rows (env : Environment)
    (usersData : UpdatableFields) (pepper : String)
    (active : ∀ user ∈ usersData, user.2.active = some 1) :
    getUsersHashes env usersData .sha256 pepper =
      (updateParams usersData).map fun args => (args.row env pepper).hash := by
  have hfield : ∀ user ∈ usersData, ∀ field,
      usersHash env .sha256 pepper user.2 field =
        (fieldParams user.1 user.2 field).map
          fun args => (args.row env pepper).hash := by
    intro user huser field
    unfold usersHash fieldParams
    cases hvalue : user.2.value field with
    | none => rfl
    | some value =>
        simp only
        by_cases hempty : value = ""
        · simp [hempty]
        · simp [hempty, active user huser, supportedHashes, UpdateArgs.row,
            UpdateArgs.text]
  unfold getUsersHashes updateParams
  rw [List.map_flatMap]
  apply List.flatMap_congr
  intro user huser
  rw [List.map_flatMap]
  apply List.flatMap_congr
  intro field _
  exact hfield user huser field

inductive Medium where
  | email
  | msisdn
  deriving DecidableEq

namespace Medium

def name : Medium → String
  | email => "email"
  | msisdn => "msisdn"

def field : Medium → Field
  | email => .email
  | msisdn => .phone

/-- An active directory user with this address only. -/
def user (address : String) : Medium → ValueField
  | email => { active := some 1, email := some address, phone := none }
  | msisdn => { active := some 1, email := none, phone := some address }

def bindText (medium : Medium) (address pepper : String) : String :=
  hashedText address (bindField medium.name) pepper

def directoryText (medium : Medium) (address pepper : String) : String :=
  hashedText (medium.field.format address) medium.field.word pepper

end Medium

section Producers

variable (env : Environment) (medium : Medium) (address pepper : String)

/-- `bind` stores the hash that `updateHash` stores, and that the push job
sends, for a directory user with the same address. -/
def ProducersAgree : Prop :=
  ∀ (boundTo directoryUser : String) (mapping : Mapping),
    mapping.medium = medium.name → mapping.address = address →
    (updateParams [(directoryUser, medium.user address)]).map
        (fun args => (args.row env pepper).hash) =
      [(bindRow env (.str boundTo) mapping pepper).hash] ∧
    getUsersHashes env [(directoryUser, medium.user address)] .sha256 pepper =
      [(bindRow env (.str boundTo) mapping pepper).hash]

theorem updateParams_user (directoryUser : String) (nonempty : address ≠ "") :
    updateParams [(directoryUser, medium.user address)] =
      [{ matrixAddress := directoryUser, method := .sha256,
         field := medium.field, value := address, active := some 1 }] := by
  cases medium with
  | email =>
      simp [updateParams, fieldsToHash, fieldParams, Medium.user,
        ValueField.value, nonempty, supportedHashes, Medium.field]
  | msisdn =>
      simp [updateParams, fieldsToHash, fieldParams, Medium.user,
        ValueField.value, nonempty, supportedHashes, Medium.field]

theorem updateParams_user_empty (directoryUser : String) :
    updateParams [(directoryUser, medium.user "")] = [] := by
  cases medium with
  | email => rfl
  | msisdn => rfl

theorem active_user (directoryUser : String) :
    ∀ user ∈ [(directoryUser, medium.user address)],
      user.2.active = some 1 := by
  intro user huser
  rw [List.mem_singleton.mp huser]
  cases medium with
  | email => rfl
  | msisdn => rfl

theorem text_eq_iff :
    medium.bindText address pepper = medium.directoryText address pepper ↔
      medium = .msisdn ∧ normalizePhone address = address := by
  unfold Medium.bindText Medium.directoryText hashedText
  cases medium with
  | email =>
      simp only [reduceCtorEq, false_and, iff_false]
      change address ++ " " ++ "mail" ++ " " ++ pepper ≠
        address ++ " " ++ "email" ++ " " ++ pepper
      simp only [ne_eq, String.append_left_inj, String.append_right_inj]
      decide
  | msisdn =>
      change address ++ " " ++ "msisdn" ++ " " ++ pepper =
        normalizePhone address ++ " " ++ "msisdn" ++ " " ++ pepper ↔ _
      simp only [String.append_left_inj, true_and]
      exact eq_comm

/-- The producers agree exactly on the phone numbers that are stored in
normalised form.  The hypothesis excludes a collision between the two texts
that are hashed. -/
theorem producers_agree_iff
    (noCollision : env.sha256 (medium.bindText address pepper) =
        env.sha256 (medium.directoryText address pepper) →
      medium.bindText address pepper = medium.directoryText address pepper) :
    ProducersAgree env medium address pepper ↔
      medium = .msisdn ∧ address ≠ "" ∧ normalizePhone address = address := by
  constructor
  · intro hagree
    have hmapping := hagree "" "" {
      clientSecret := "", sessionId := "", medium := medium.name, valid := 1,
      address := address, submitTime := 0, sendAttempt := .int 0 } rfl rfl
    by_cases hempty : address = ""
    · subst hempty
      rw [updateParams_user_empty] at hmapping
      cases hmapping.1
    · rw [updateParams_user medium address "" hempty] at hmapping
      simp only [List.map_cons, List.map_nil, List.cons.injEq, and_true]
        at hmapping
      obtain ⟨hmedium, hphone⟩ := (text_eq_iff medium address pepper).mp
        (noCollision hmapping.1.symm)
      exact ⟨hmedium, hempty, hphone⟩
  · rintro ⟨hmedium, hnonempty, hphone⟩
    intro boundTo directoryUser mapping hname haddress
    have htext := (text_eq_iff medium address pepper).mpr ⟨hmedium, hphone⟩
    have hrows : (updateParams [(directoryUser, medium.user address)]).map
        (fun args => (args.row env pepper).hash) =
        [(bindRow env (.str boundTo) mapping pepper).hash] := by
      rw [updateParams_user medium address directoryUser hnonempty]
      simp only [List.map_cons, List.map_nil, bindRow, hname, haddress]
      exact congrArg (fun text => [env.sha256 text]) htext.symm
    refine ⟨hrows, ?_⟩
    rw [getUsersHashes_eq_rows env _ pepper
      (active_user medium address directoryUser)]
    exact hrows

end Producers

/-- The digests of the texts below. -/
def sampleSha256 (text : String) : String :=
  if text = "alice@example.com mail matrixrocks" then
    "2LKRnM9H2Yn8mFQBRimFUw8viEICyvmM6kHN_KVS6OA"
  else if text = "alice@example.com email matrixrocks" then
    "4kenr7N9drpCJ4AfalmlGQVsOn3o2RHjkADUpXJWZUc"
  else if text = "33601020304 msisdn matrixrocks" then
    "NUKJwcNo7FmTUPgLDl-ueK7tDZRiHlfuywaFxN8RRs4"
  else ""

theorem producers_agree_phone :
    ProducersAgree (.offline sampleSha256) .msisdn "33601020304"
      "matrixrocks" := by
  apply (producers_agree_iff (.offline sampleSha256) .msisdn "33601020304"
    "matrixrocks" (fun _ => by decide)).mpr
  decide

theorem producers_differ_email :
    ¬ ProducersAgree (.offline sampleSha256) .email "alice@example.com"
      "matrixrocks" := by
  intro hagree
  have hrows := (hagree "@alice:example.com" "@alice:example.com" {
    clientSecret := "s3cret", sessionId := "sid1", medium := "email",
    valid := 1, address := "alice@example.com", submitTime := 0,
    sendAttempt := .int 1 } rfl rfl).1
  exact absurd hrows (by decide)

end TwakeKickstart.IdentityServer
