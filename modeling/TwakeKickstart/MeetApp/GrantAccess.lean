import Mathlib.Data.List.Basic

namespace TwakeKickstart.MeetApp

/-! Access to the rooms of the meeting server, granted by applications. -/

inductive Role where
  | member
  | administrator
  | owner
  deriving DecidableEq

namespace Role

def text : Role → String
  | member => "member"
  | administrator => "administrator"
  | owner => "owner"

def rank : Role → Nat
  | member => 1
  | administrator => 2
  | owner => 3

theorem rank_le_owner (role : Role) : role.rank ≤ owner.rank := by
  cases role <;> decide

end Role

/-- No access is below every role. -/
def rank (access : Option Role) : Nat := (access.map Role.rank).getD 0

inductive ProvisionalError where
  | creationDisabled
  | integrity

structure Request (User : Type) where
  user : User
  pk : String
  email : Option String
  role : Option String
  clientId : Option String

structure State (Users Room User : Type) where
  users : Users
  access : Room → User → Option Role

/-- What the endpoint finds on the server. -/
structure Backend (Users Room User : Type) where
  room : String → Option Room
  /-- The application may grant access, and the user may see the room. -/
  permitted : State Users Room User → Request User → Bool
  isAdministratorOrOwner : (User → Option Role) → User → Bool
  /-- An address as the field of an email accepts it. -/
  emailField : String → Option String
  /-- The user of an address, and whether the account is a new one. -/
  getOrCreate : Users → String → String →
    Users × Except ProvisionalError (User × Bool)
  getOrCreate_again : ∀ {users email clientId users' user created},
    getOrCreate users email clientId = (users', .ok (user, created)) →
      getOrCreate users' email clientId = (users', .ok (user, false))
  getOrCreate_failed : ∀ {users email clientId users' error},
    getOrCreate users email clientId = (users', .error error) → users' = users

inductive Body where
  | refused
  | detail (detail : String)
  | invalid
  | error (error : String)
  | alreadyOwner (detail : String) (role : Role)
  | granted (email : String) (role : Role) (created provisional : Bool)

structure Response where
  status : Nat
  body : Body

section GrantAccess

variable {Users Room User : Type} [DecidableEq Room] [DecidableEq User]
  (backend : Backend Users Room User)

/-- The serializer's choice: nothing but the first two roles, and the
administrator where no role is given. -/
def roleField : Option String → Option Role
  | none => some .administrator
  | some text =>
      if text = Role.administrator.text then some .administrator
      else if text = Role.member.text then some .member
      else none

def validate (request : Request User) : Option (String × Role) :=
  (request.email.bind backend.emailField).bind fun email =>
    (roleField request.role).map fun role => (email, role)

def setRole (access : Room → User → Option Role) (room : Room)
    (delegate : User) (role : Role) : Room → User → Option Role :=
  fun other user =>
    if other = room ∧ user = delegate then some role else access other user

def upsert (access : Room → User → Option Role) (room : Room)
    (delegate : User) (email : String) (role : Role) (provisional : Bool) :
    (Room → User → Option Role) × Response :=
  match access room delegate with
  | some existing =>
      if existing = .owner then
        (access, ⟨200, .alreadyOwner "Delegate is already owner of this room."
          existing⟩)
      else (setRole access room delegate role,
        ⟨200, .granted email role false provisional⟩)
  | none => (setRole access room delegate role,
      ⟨201, .granted email role true provisional⟩)

/-- The checks before the delegate is looked up. -/
def check (state : State Users Room User) (request : Request User) :
    Except Response (Room × String × Role) :=
  if backend.permitted state request = false then .error ⟨403, .refused⟩
  else
    match backend.room request.pk with
    | none => .error ⟨404, .refused⟩
    | some room =>
      if backend.isAdministratorOrOwner (state.access room) request.user =
          false then
        .error ⟨403, .detail
          "You must be admin or owner of the room to grant access."⟩
      else
        match validate backend request with
        | none => .error ⟨400, .invalid⟩
        | some (email, role) => .ok (room, email, role)

def ProvisionalError.response : ProvisionalError → Response
  | creationDisabled => ⟨404, .detail ("Delegate user not found and " ++
      "provisional user creation is disabled.")⟩
  | integrity => ⟨409, .error "Failed to create or retrieve delegate user."⟩

def grantAccess (state : State Users Room User) (request : Request User) :
    State Users Room User × Response :=
  match check backend state request with
  | .error response => (state, response)
  | .ok (room, email, role) =>
    match backend.getOrCreate state.users email
        (request.clientId.getD "unknown") with
    | (users, .error error) => ({ state with users }, error.response)
    | (users, .ok (delegate, created)) =>
      let upserted := upsert state.access room delegate email role created
      ({ users, access := upserted.1 }, upserted.2)

def step (state : State Users Room User) (request : Request User) :
    State Users Room User :=
  (grantAccess backend state request).1

def run (state : State Users Room User) (requests : List (Request User)) :
    State Users Room User :=
  requests.foldl (step backend) state

/-! What a request asks for. -/

structure Grant (Room User : Type) where
  room : Room
  delegate : User
  role : Role

/-- The grant of a request that passes all checks. -/
def admitted (state : State Users Room User) (request : Request User) :
    Option (Grant Room User) :=
  match check backend state request with
  | .error _ => none
  | .ok (room, email, role) =>
    match backend.getOrCreate state.users email
        (request.clientId.getD "unknown") with
    | (_, .error _) => none
    | (_, .ok (delegate, _)) => some ⟨room, delegate, role⟩

/-- An owner's access stays as it is, and any other one is set. -/
def apply (access : Room → User → Option Role) (grant : Grant Room User) :
    Room → User → Option Role :=
  if access grant.room grant.delegate = some .owner then access
  else setRole access grant.room grant.delegate grant.role

theorem upsert_access (access : Room → User → Option Role) (room : Room)
    (delegate : User) (email : String) (role : Role) (provisional : Bool) :
    (upsert access room delegate email role provisional).1 =
      apply access ⟨room, delegate, role⟩ := by
  rw [upsert, apply]
  cases h : access room delegate with
  | none => rw [if_neg nofun]
  | some existing =>
      by_cases howner : existing = .owner
      · rw [if_pos (congrArg some howner)]
        simp [howner]
      · rw [if_neg fun h => howner (Option.some.inj h)]
        simp [howner]

/-- What a request does: nothing where it is refused, and otherwise the grant
for the user that the address is looked up for. -/
theorem step_cases (state : State Users Room User) (request : Request User) :
    (admitted backend state request = none ∧
      step backend state request = state) ∨
    ∃ room email role users delegate created,
      check backend state request = .ok (room, email, role) ∧
      backend.getOrCreate state.users email (request.clientId.getD "unknown") =
        (users, .ok (delegate, created)) ∧
      admitted backend state request = some ⟨room, delegate, role⟩ ∧
      step backend state request =
        { users, access := apply state.access ⟨room, delegate, role⟩ } := by
  cases hcheck : check backend state request with
  | error response =>
      left
      simp [admitted, step, grantAccess, hcheck]
  | ok checked =>
      obtain ⟨room, email, role⟩ := checked
      cases hfound : backend.getOrCreate state.users email
          (request.clientId.getD "unknown") with
      | mk users result =>
          cases result with
          | error error =>
              left
              have husers := backend.getOrCreate_failed hfound
              simp [admitted, step, grantAccess, hcheck, hfound, husers]
          | ok found =>
              obtain ⟨delegate, created⟩ := found
              right
              refine ⟨room, email, role, users, delegate, created, rfl, hfound,
                ?_⟩
              simp [admitted, step, grantAccess, hcheck, hfound,
                upsert_access]

theorem step_access (state : State Users Room User) (request : Request User) :
    (step backend state request).access =
      ((admitted backend state request).map (apply state.access)).getD
        state.access := by
  obtain ⟨hrefused, hstep⟩ | ⟨_, _, _, _, _, _, _, _, hgrant, hstep⟩ :=
    step_cases backend state request
  · rw [hrefused, hstep]
    rfl
  · rw [hgrant, hstep]
    rfl

omit [DecidableEq Room] [DecidableEq User] in
theorem check_unique {state other : State Users Room User}
    {request : Request User} {checked checked' : Room × String × Role}
    (h : check backend state request = .ok checked)
    (h' : check backend other request = .ok checked') : checked = checked' := by
  have hfound {state : State Users Room User}
      {checked : Room × String × Role}
      (h : check backend state request = .ok checked) :
      backend.room request.pk = some checked.1 ∧
        validate backend request = some checked.2 := by
    rw [check] at h
    split at h
    · cases h
    split at h
    · cases h
    split at h
    · cases h
    split at h
    · cases h
    · cases h
      exact ⟨‹_›, ‹_›⟩
  obtain ⟨hroom, hvalid⟩ := hfound h
  obtain ⟨hroom', hvalid'⟩ := hfound h'
  rw [hroom] at hroom'
  rw [hvalid] at hvalid'
  exact Prod.ext (Option.some.inj hroom') (Option.some.inj hvalid')

theorem apply_apply (access : Room → User → Option Role)
    (grant : Grant Room User) :
    apply (apply access grant) grant = apply access grant := by
  by_cases howner : access grant.room grant.delegate = some .owner
  · have hsame : apply access grant = access := if_pos howner
    rw [hsame, hsame]
  · have hset : apply access grant =
        setRole access grant.room grant.delegate grant.role := if_neg howner
    rw [hset, apply]
    split
    · rfl
    · funext room user
      simp only [setRole]
      split <;> rfl

theorem step_step (state : State Users Room User) (request : Request User) :
    step backend (step backend state request) request =
      step backend state request := by
  obtain ⟨_, hstep⟩ | ⟨room, email, role, users, delegate, created, hcheck,
    hfound, _, hstep⟩ := step_cases backend state request
  · rw [hstep, hstep]
  obtain ⟨_, hagain⟩ | ⟨room', email', role', users', delegate', created',
    hcheck', hfound', _, hagain⟩ :=
      step_cases backend (step backend state request) request
  · exact hagain
  have hsame := check_unique backend hcheck hcheck'
  cases hsame
  have hfound'' := backend.getOrCreate_again hfound
  rw [hstep] at hfound'
  rw [hfound''] at hfound'
  cases hfound'
  rw [hagain, hstep]
  congr 1
  exact apply_apply state.access _

/-- The request asks for no less than the delegate has, or he is an owner. -/
def Raises (state : State Users Room User) (request : Request User) : Prop :=
  ∀ grant, admitted backend state request = some grant →
    state.access grant.room grant.delegate = some .owner ∨
      rank (state.access grant.room grant.delegate) ≤ grant.role.rank

def Grant.IsFor (grant : Grant Room User) (room : Room) (user : User) : Prop :=
  room = grant.room ∧ user = grant.delegate

instance (grant : Grant Room User) (room : Room) (user : User) :
    Decidable (grant.IsFor room user) :=
  inferInstanceAs (Decidable (_ ∧ _))

theorem rank_apply {access : Room → User → Option Role}
    {grant : Grant Room User}
    (raises : access grant.room grant.delegate = some .owner ∨
      rank (access grant.room grant.delegate) ≤ grant.role.rank)
    (room : Room) (user : User) :
    rank (apply access grant room user) =
      if grant.IsFor room user then
        max (rank (access room user)) grant.role.rank
      else rank (access room user) := by
  by_cases hfor : grant.IsFor room user
  · obtain ⟨rfl, rfl⟩ := hfor
    rw [if_pos ⟨rfl, rfl⟩, apply]
    split
    · rename_i howner
      rw [howner]
      exact (Nat.max_eq_left grant.role.rank_le_owner).symm
    · rename_i howner
      rw [Nat.max_eq_right (raises.resolve_left howner), setRole,
        if_pos ⟨rfl, rfl⟩]
      rfl
  · rw [if_neg hfor, apply]
    split
    · rfl
    · exact congrArg rank (if_neg hfor)

/-- The roles that the requests of a run ask for a user. -/
def requested (room : Room) (user : User) :
    State Users Room User → List (Request User) → List Role
  | _, [] => []
  | state, request :: requests =>
      ((admitted backend state request).toList.filter
        (·.IsFor room user)).map Grant.role ++
          requested room user (step backend state request) requests

/-- The greatest of a rank and those of the roles. -/
def greatest (rank : Nat) (roles : List Role) : Nat :=
  (roles.map Role.rank).foldl max rank

theorem rank_step {state : State Users Room User} {request : Request User}
    (raises : Raises backend state request) (room : Room) (user : User) :
    rank ((step backend state request).access room user) =
      greatest (rank (state.access room user))
        (((admitted backend state request).toList.filter
          (·.IsFor room user)).map Grant.role) := by
  rw [step_access]
  cases hgrant : admitted backend state request with
  | none => rfl
  | some grant =>
      rw [Option.map_some, Option.getD_some, rank_apply (raises grant hgrant)]
      by_cases hfor : grant.IsFor room user
      · simp [hfor, greatest]
      · simp [hfor, greatest]

/-! Runs. -/

/-- What holds before each request of a run. -/
def Throughout (property : State Users Room User → Request User → Prop)
    (state : State Users Room User) (requests : List (Request User)) : Prop :=
  ∀ before request after, requests = before ++ request :: after →
    property (run backend state before) request

theorem throughout_cons {property : State Users Room User → Request User → Prop}
    {state : State Users Room User} {request : Request User}
    {requests : List (Request User)}
    (h : Throughout backend property state (request :: requests)) :
    property state request ∧
      Throughout backend property (step backend state request) requests := by
  refine ⟨h [] request requests rfl, ?_⟩
  intro before other after hrequests
  exact h (request :: before) other after (congrArg _ hrequests)

theorem rank_run {state : State Users Room User}
    {requests : List (Request User)}
    (raises : Throughout backend (Raises backend) state requests)
    (room : Room) (user : User) :
    rank ((run backend state requests).access room user) =
      greatest (rank (state.access room user))
        (requested backend room user state requests) := by
  induction requests generalizing state with
  | nil => rfl
  | cons request requests ih =>
      obtain ⟨hfirst, hrest⟩ := throughout_cons backend raises
      rw [run, List.foldl_cons]
      refine (ih hrest).trans ?_
      rw [rank_step backend hfirst, requested, greatest, greatest, greatest,
        List.map_append, List.foldl_append]

theorem rank_le_run {state : State Users Room User}
    {requests : List (Request User)}
    (raises : Throughout backend (Raises backend) state requests)
    (room : Room) (user : User) :
    rank (state.access room user) ≤
      rank ((run backend state requests).access room user) := by
  have hleast (roles : List Nat) (least : Nat) :
      least ≤ roles.foldl max least := by
    induction roles generalizing least with
    | nil => exact Nat.le_refl _
    | cons role roles ih =>
        exact Nat.le_trans (Nat.le_max_left least role) (ih _)
  rw [rank_run backend raises]
  exact hleast _ _

structure NeverLowers (state : State Users Room User)
    (requests : List (Request User)) : Prop where
  kept : ∀ before between after, requests = before ++ (between ++ after) →
    ∀ room user, rank ((run backend state before).access room user) ≤
      rank ((run backend state (before ++ between)).access room user)
  owners : ∀ before between after, requests = before ++ (between ++ after) →
    ∀ room user,
      (run backend state before).access room user = some .owner →
        (run backend state (before ++ between)).access room user = some .owner
  again : Throughout backend
    (fun state request => step backend (step backend state request) request =
      step backend state request) state requests
  final : ∀ room user,
    rank ((run backend state requests).access room user) =
      greatest (rank (state.access room user))
        (requested backend room user state requests)

theorem run_append (state : State Users Room User)
    (first second : List (Request User)) :
    run backend state (first ++ second) =
      run backend (run backend state first) second :=
  List.foldl_append

theorem throughout_between
    {property : State Users Room User → Request User → Prop}
    {state : State Users Room User}
    {before between after : List (Request User)}
    (h : Throughout backend property state (before ++ (between ++ after))) :
    Throughout backend property (run backend state before) between := by
  intro first request second hbetween
  rw [← run_append]
  apply h (before ++ first) request (second ++ after)
  rw [hbetween]
  simp

theorem owner_iff {access : Option Role} :
    access = some .owner ↔ 3 ≤ rank access := by
  cases access with
  | none => decide
  | some role => cases role <;> decide

/-- Access is never lowered just when no request asks for less than the
delegate has. -/
theorem neverLowers_iff (state : State Users Room User)
    (requests : List (Request User)) :
    NeverLowers backend state requests ↔
      Throughout backend (Raises backend) state requests := by
  constructor
  · intro h before request after hrequests grant hgrant
    have hkept := h.kept before [request] after hrequests grant.room
      grant.delegate
    have hrun : run backend state (before ++ [request]) =
        step backend (run backend state before) request :=
      run_append backend state before [request]
    rw [hrun, step_access, hgrant, Option.map_some, Option.getD_some, apply]
      at hkept
    split at hkept
    · exact .inl ‹_›
    · rw [setRole, if_pos ⟨rfl, rfl⟩] at hkept
      exact .inr hkept
  · intro h
    have hkept (before between after : List (Request User))
        (hrequests : requests = before ++ (between ++ after)) (room : Room)
        (user : User) :
        rank ((run backend state before).access room user) ≤
          rank ((run backend state (before ++ between)).access room user) := by
      rw [run_append]
      subst hrequests
      exact rank_le_run backend (throughout_between backend h) room user
    refine ⟨hkept, ?_, ?_, rank_run backend h⟩
    · intro before between after hrequests room user howner
      rw [owner_iff] at howner ⊢
      exact Nat.le_trans howner
        (hkept before between after hrequests room user)
    · exact fun before request _ _ =>
        step_step backend (run backend state before) request

end GrantAccess

/-! A room with an owner and an administrator. -/

/-- The accounts of two addresses, which are there already. -/
def sampleBackend : Backend Unit Unit String where
  room := fun pk => if pk = "room" then some () else none
  permitted := fun _ _ => true
  isAdministratorOrOwner := fun access user =>
    access user = some .administrator ∨ access user = some .owner
  emailField := some
  getOrCreate := fun users email _ => (users, .ok (email, false))
  getOrCreate_again := by
    intro users email clientId users' user created h
    cases h
    rfl
  getOrCreate_failed := by
    intro users email clientId users' error h
    cases h

def sampleState : State Unit Unit String where
  users := ()
  access := fun _ user =>
    if user = "alice" then some .owner
    else if user = "bob" then some .administrator else none

def asMember (delegate : String) : Request String where
  user := "alice"
  pk := "room"
  email := some delegate
  role := some "member"
  clientId := none

/-- The owner asks for a member, and an administrator becomes one. -/
theorem administrator_lowered :
    (run sampleBackend sampleState []).access () "bob" = some .administrator ∧
      (run sampleBackend sampleState [asMember "bob"]).access () "bob" =
        some .member ∧
      ¬ NeverLowers sampleBackend sampleState [asMember "bob"] := by
  refine ⟨by decide, by decide, ?_⟩
  intro h
  have hkept := h.kept [] [asMember "bob"] [] rfl () "bob"
  revert hkept
  decide

end TwakeKickstart.MeetApp
