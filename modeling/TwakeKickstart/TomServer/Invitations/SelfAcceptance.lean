import TwakeKickstart.TomServer.Invitations.Replies

namespace TwakeKickstart.TomServer.Invitations

open Library

/-! The check of `checkInvitation` against accepting one's own invitation, and
the other invitations to the same address that `accept` processes. -/

/-- Nobody's own invitation has been processed. -/
structure SelfFree (vars : Vars) : Prop where
  rooms : ∀ chat ∈ vars.rooms, chat.invitation.sender ≠ chat.request.userId
  marks : ∀ mark ∈ vars.marks, mark.invitation.sender ≠ mark.request.userId

/-- The request passes the middleware and the controller; `row` is the
invitation it names. -/
structure Passes (plan : Plan) (request : Request) (table : List Invitation)
    (row : Invitation) : Prop where
  answers : (plan (.checkInvitation request)).fails = false
  named : request.id ≠ ""
  first : firstRow request.id table = some row
  foreign : request.userId ≠ row.sender
  valid : (plan (.checkInvitation request)).clock 0 ≤ row.expiration
  authorized : request.authorization ≠ ""
  identified : request.userId ≠ ""

/-- The invitation is one of those to the address of the requested one, and the
loop over these reaches it before it expires. -/
structure FansOut (plan : Plan) (request : Request) (table : List Invitation)
    (row : Invitation) (invitation : InvitationResponse) : Prop where
  passes : Passes plan request table row
  finds : Finds plan request table row
  addressed : truthy row.recipient = true
  answers : (plan (listOperation request row)).fails = false
  listed : ∃ rows reading,
    getInvitations [("recipient", .str (row.recipient.getD ""))] table =
      some rows ∧
    (pendingToAddress (row.recipient.getD "") rows)[reading]? =
      some invitation ∧
    (plan (listOperation request row)).clock reading ≤ invitation.expiration

/-- An own invitation is processed because the loop has reached it and its room
can be created. -/
def Allowed (plan : Plan) (request : Request) (table : List Invitation)
    (invitation : InvitationResponse) : Prop :=
  invitation.sender = request.userId →
    ∃ row, FansOut plan request table row invitation ∧
      (plan (.createPrivateChat request invitation false)).effective = true

inductive Operation.Processes (plan : Plan) (request : Request)
    (table : List Invitation) : Operation → Prop
  | create {invitation : InvitationResponse} {awaited : Bool}
      (reached : invitation.sender = request.userId → awaited = false ∧
        ∃ row, FansOut plan request table row invitation) :
      Processes plan request table
        (.createPrivateChat request invitation awaited)
  | direct {invitation : InvitationResponse} {awaited : Bool} {room : String}
      (allowed : Allowed plan request table invitation) :
      Processes plan request table
        (.markAsDirectMessage request invitation awaited room)
  | update {invitation : InvitationResponse} {awaited : Bool}
      (allowed : Allowed plan request table invitation) :
      Processes plan request table (.update request invitation awaited)

structure Accounted (plan : Plan) (request : Request)
    (table : List Invitation) (loop : AcceptLoop) : Prop where
  pending : ∀ operation ∈ loop.pending,
    operation.Processes plan request table
  rooms : ∀ chat ∈ loop.vars.rooms, chat.request = request ∧
    Allowed plan request table chat.invitation
  marks : ∀ mark ∈ loop.vars.marks, mark.request = request ∧
    Allowed plan request table mark.invitation

/-- What the loop reaches is on its way, or has its room if that can be
created. -/
def Reaches (plan : Plan) (request : Request) (table : List Invitation)
    (loop : AcceptLoop) : Prop :=
  ∀ row invitation, FansOut plan request table row invitation →
    .createPrivateChat request invitation false ∈ loop.pending ∨
      ((plan (.createPrivateChat request invitation false)).effective = true →
        ∃ chat ∈ loop.vars.rooms, chat.request = request ∧
          chat.invitation = invitation)

/-- How far the call is. -/
inductive SelfChecking (plan : Plan) (request : Request)
    (table : List Invitation) (loop : AcceptLoop) : Prop
  | checking (pending : loop.pending = [.checkInvitation request])
      (rooms : loop.vars.rooms = []) (marks : loop.vars.marks = [])
      (same : loop.vars.table = table)
  | reading (row : Invitation) (passes : Passes plan request table row)
      (pending : loop.pending = [.getInvitationById request])
      (rooms : loop.vars.rooms = []) (marks : loop.vars.marks = [])
      (same : loop.vars.table = table)
  | listing (row : Invitation) (passes : Passes plan request table row)
      (finds : Finds plan request table row)
      (addressed : truthy row.recipient = true)
      (pending : loop.pending = [listOperation request row])
      (rooms : loop.vars.rooms = []) (marks : loop.vars.marks = [])
      (same : loop.vars.table = table)
  | processing (accounted : Accounted plan request table loop)
      (reaches : Reaches plan request table loop)

section Steps

variable {plan : Plan} {request : Request} {table : List Invitation}
variable {row : Invitation} {before after : AcceptLoop}
variable {operation : Operation} {rest : List Operation}

theorem SelfChecking.stop {loop : AcceptLoop}
    (pending : loop.pending = []) (rooms : loop.vars.rooms = [])
    (marks : loop.vars.marks = [])
    (none : ∀ row invitation, ¬ FansOut plan request table row invitation) :
    SelfChecking plan request table loop := by
  refine .processing ⟨?_, ?_, ?_⟩ fun row invitation fans =>
    absurd fans (none row invitation)
  · intro operation hoperation
    rw [pending] at hoperation
    exact absurd hoperation List.not_mem_nil
  · intro chat hchat
    rw [rooms] at hchat
    exact absurd hchat List.not_mem_nil
  · intro mark hmark
    rw [marks] at hmark
    exact absurd hmark List.not_mem_nil

theorem reply_check {vars : Vars} (same : vars.table = table) :
    (∀ row, ¬ Passes plan request table row) ∧
      (reply (plan (.checkInvitation request)) (.checkInvitation request)
        vars).2 = [] ∨
    ∃ row, Passes plan request table row ∧
      (reply (plan (.checkInvitation request)) (.checkInvitation request)
        vars).2 = [.getInvitationById request] := by
  by_cases hnamed : request.id = ""
  · refine .inl ⟨fun row passes => passes.named hnamed, ?_⟩
    simp only [reply, onCheck, hnamed, if_true]
  by_cases hfails : (plan (.checkInvitation request)).fails = true
  · refine .inl ⟨fun row passes => ?_, ?_⟩
    · rw [passes.answers] at hfails
      cases hfails
    · rw [reply, select_failed hfails, onCheck, if_neg hnamed]
  · have hanswers := Bool.eq_false_iff.mpr hfails
    obtain ⟨rows, hrows⟩ := getInvitations_str "id" request.id table
    have hfirst : firstRow request.id table = rows.head? := by
      rw [firstRow, hrows]
      rfl
    rw [reply, select_healthy hanswers, same, hrows]
    cases rows with
    | nil =>
        refine .inl ⟨fun row passes => ?_, by simp [onCheck, hnamed]⟩
        have hnone := passes.first
        rw [hfirst] at hnone
        cases hnone
    | cons row others =>
        have hrow : firstRow request.id table = some row := hfirst
        have hsame : ∀ other, Passes plan request table other → other = row :=
          fun other passes =>
            Option.some.inj (passes.first.symm.trans hrow)
        simp only [onCheck, if_neg hnamed]
        split
        · rename_i hown
          exact .inl ⟨fun other passes =>
            passes.foreign (hsame other passes ▸ hown), rfl⟩
        · rename_i hforeign
          split
          · rename_i hexpired
            exact .inl ⟨fun other passes => Nat.not_le.mpr hexpired
              (hsame other passes ▸ passes.valid), rfl⟩
          · rename_i hvalid
            split
            · rename_i hauthorization
              exact .inl ⟨fun _ passes => passes.authorized hauthorization, rfl⟩
            · rename_i hauthorization
              split
              · rename_i huser
                exact .inl ⟨fun _ passes => passes.identified huser, rfl⟩
              · rename_i huser
                exact .inr ⟨row, ⟨hanswers, hnamed, hrow, hforeign,
                  Nat.not_lt.mp hvalid, hauthorization, huser⟩, rfl⟩

theorem SelfChecking.check
    (completes : Loop.Completes react before (plan operation) operation rest
      after)
    (pending : before.pending = [.checkInvitation request])
    (rooms : before.vars.rooms = []) (marks : before.vars.marks = [])
    (same : before.vars.table = table) :
    SelfChecking plan request table after := by
  obtain ⟨rfl, rfl⟩ := completes.only pending
  have hrooms : after.vars.rooms = [] := by
    rw [completes.vars, react_rooms, rooms]
    rfl
  have hmarks : after.vars.marks = [] := by
    rw [completes.vars, react_marks, marks]
    rfl
  have hissued := completes.issued
  rw [react_issued, List.nil_append] at hissued
  rcases @reply_check plan request table before.vars same with
    ⟨hnone, hreply⟩ | ⟨row, hpasses, hreply⟩
  · exact .stop (hissued.trans hreply) hrooms hmarks
      fun row _ fans => hnone row fans.passes
  · refine .reading row hpasses (hissued.trans hreply) hrooms hmarks ?_
    rw [completes.vars, react_table, same]
    rfl

theorem SelfChecking.read
    (completes : Loop.Completes react before (plan operation) operation rest
      after)
    (passes : Passes plan request table row)
    (pending : before.pending = [.getInvitationById request])
    (rooms : before.vars.rooms = []) (marks : before.vars.marks = [])
    (same : before.vars.table = table) :
    SelfChecking plan request table after := by
  obtain ⟨rfl, rfl⟩ := completes.only pending
  have hrooms : after.vars.rooms = [] := by
    rw [completes.vars, react_rooms, rooms]
    rfl
  have hmarks : after.vars.marks = [] := by
    rw [completes.vars, react_marks, marks]
    rfl
  have hissued := completes.issued
  rw [react_issued, List.nil_append] at hissued
  rcases @reply_first plan request table before.vars same with
    ⟨hnone, hreply⟩ | ⟨found, hfinds, hreply⟩
  · rw [hreply] at hissued
    exact .stop hissued hrooms hmarks fun row _ fans => hnone row fans.finds
  · have hfound : found = row := hfinds.same passes.first
    subst hfound
    by_cases haddressed : truthy found.recipient = true
    · rw [hreply, if_pos haddressed] at hissued
      refine .listing found passes hfinds haddressed hissued hrooms hmarks ?_
      rw [completes.vars, react_table, same]
      rfl
    · have hnone : ∀ row invitation,
          ¬ FansOut plan request table row invitation := by
        intro other invitation fans
        rw [← hfinds.same fans.finds.first] at fans
        exact haddressed fans.addressed
      rw [hreply, if_neg haddressed] at hissued
      by_cases hlate : found.expiration <
          (plan (.getInvitationById request)).clock 1
      · rw [if_pos hlate] at hissued
        exact .stop hissued hrooms hmarks hnone
      · rw [if_neg hlate] at hissued
        refine .processing ⟨?_, ?_, ?_⟩ fun row invitation fans =>
          absurd fans (hnone row invitation)
        · intro other hother
          rw [hissued] at hother
          cases List.mem_singleton.mp hother
          exact .create fun hown => absurd hown.symm passes.foreign
        · intro chat hchat
          rw [hrooms] at hchat
          exact absurd hchat List.not_mem_nil
        · intro mark hmark
          rw [hmarks] at hmark
          exact absurd hmark List.not_mem_nil

theorem SelfChecking.list
    (completes : Loop.Completes react before (plan operation) operation rest
      after)
    (passes : Passes plan request table row)
    (finds : Finds plan request table row)
    (addressed : truthy row.recipient = true)
    (pending : before.pending = [listOperation request row])
    (rooms : before.vars.rooms = []) (marks : before.vars.marks = [])
    (same : before.vars.table = table) :
    SelfChecking plan request table after := by
  obtain ⟨rfl, rfl⟩ := completes.only pending
  have hrooms : after.vars.rooms = [] := by
    rw [completes.vars, react_rooms, rooms]
    rfl
  have hmarks : after.vars.marks = [] := by
    rw [completes.vars, react_marks, marks]
    rfl
  have hissued := completes.issued
  rw [react_issued, List.nil_append] at hissued
  by_cases hfails : (plan (listOperation request row)).fails = true
  · refine .stop ?_ hrooms hmarks fun other _ fans => ?_
    · rw [hissued, listOperation, reply, ← listOperation, select_failed hfails]
      rfl
    · have hanswers := fans.answers
      rw [← finds.same fans.finds.first, hfails] at hanswers
      cases hanswers
  · have hanswers := Bool.eq_false_iff.mpr hfails
    obtain ⟨rows, hrows⟩ := getInvitations_str "recipient"
      (row.recipient.getD "") table
    rw [listOperation, reply, ← listOperation, select_healthy hanswers, same,
      hrows] at hissued
    refine .processing ⟨?_, ?_, ?_⟩ ?_
    · intro other hother
      rw [hissued] at hother
      obtain ⟨reading, invitation, hread, hvalid, rfl⟩ :=
        mem_processEach.mp hother
      exact .create fun _ => ⟨rfl, row, passes, finds, addressed, hanswers,
        rows, reading, hrows, hread, hvalid⟩
    · intro chat hchat
      rw [hrooms] at hchat
      exact absurd hchat List.not_mem_nil
    · intro mark hmark
      rw [hmarks] at hmark
      exact absurd hmark List.not_mem_nil
    · intro other invitation fans
      obtain ⟨found, reading, hfound, hread, hvalid⟩ := fans.listed
      rw [← finds.same fans.finds.first] at hfound hread hvalid
      rw [hrows] at hfound
      cases hfound
      refine .inl ?_
      rw [hissued]
      exact mem_processEach.mpr ⟨reading, invitation, hread, hvalid, rfl⟩

theorem allowed_create {invitation : InvitationResponse} {awaited : Bool}
    (reached : invitation.sender = request.userId → awaited = false ∧
      ∃ row, FansOut plan request table row invitation)
    (effective : (plan (.createPrivateChat request invitation
      awaited)).effective = true) :
    Allowed plan request table invitation := by
  intro hown
  obtain ⟨rfl, row, hfans⟩ := reached hown
  exact ⟨row, hfans, effective⟩

namespace Operation.Processes

theorem next {issued : Operation} {vars : Vars}
    (processes : operation.Processes plan request table)
    (h : issued ∈ (react (plan operation) operation vars).2) :
    issued.Processes plan request table := by
  cases processes with
  | create reached =>
      simp only [react, reply, onRoom] at h
      split at h
      · exact absurd h List.not_mem_nil
      · rename_i hfails
        cases List.mem_singleton.mp h
        refine .direct (allowed_create reached ?_)
        rw [Outcome.effective, Bool.eq_false_iff.mpr hfails]
        rfl
  | direct allowed =>
      simp only [react, reply, onDirect] at h
      split at h
      · exact absurd h List.not_mem_nil
      · cases List.mem_singleton.mp h
        exact .update allowed
  | update allowed =>
      simp only [react, reply, onUpdate] at h
      exact absurd h List.not_mem_nil

theorem room {chat : PrivateChat}
    (processes : operation.Processes plan request table)
    (h : chat ∈ operation.newRooms (plan operation)) :
    chat.request = request ∧ Allowed plan request table chat.invitation := by
  cases processes with
  | create reached =>
      simp only [Operation.newRooms] at h
      split at h
      · rename_i heffective
        cases List.mem_singleton.mp h
        exact ⟨rfl, allowed_create reached heffective⟩
      · exact absurd h List.not_mem_nil
  | direct allowed => exact absurd h List.not_mem_nil
  | update allowed => exact absurd h List.not_mem_nil

theorem mark {mark : Mark}
    (processes : operation.Processes plan request table)
    (h : mark ∈ operation.newMarks (plan operation)) :
    mark.request = request ∧ Allowed plan request table mark.invitation := by
  cases processes with
  | create reached => exact absurd h List.not_mem_nil
  | direct allowed => exact absurd h List.not_mem_nil
  | update allowed =>
      simp only [Operation.newMarks] at h
      split at h
      · cases List.mem_singleton.mp h
        exact ⟨rfl, allowed⟩
      · exact absurd h List.not_mem_nil

end Operation.Processes

theorem Accounted.step (accounted : Accounted plan request table before)
    (completes : Loop.Completes react before (plan operation) operation rest
      after) :
    Accounted plan request table after := by
  have hprocesses := accounted.pending operation completes.mem_pending
  refine ⟨?_, ?_, ?_⟩
  · intro other hother
    rcases completes.mem_after hother with ⟨_, hbefore⟩ | hissued
    · exact accounted.pending other hbefore
    · exact hprocesses.next hissued
  · intro chat hchat
    rw [completes.vars, react_rooms] at hchat
    rcases List.mem_append.mp hchat with hbefore | hnew
    · exact accounted.rooms chat hbefore
    · exact hprocesses.room hnew
  · intro mark hmark
    rw [completes.vars, react_marks] at hmark
    rcases List.mem_append.mp hmark with hbefore | hnew
    · exact accounted.marks mark hbefore
    · exact hprocesses.mark hnew

theorem Reaches.step (reaches : Reaches plan request table before)
    (completes : Loop.Completes react before (plan operation) operation rest
      after) :
    Reaches plan request table after := by
  intro row invitation fans
  rcases reaches row invitation fans with hpending | hroom
  · rcases completes.mem_before hpending with rfl | hafter
    · refine .inr fun heffective => ?_
      refine ⟨⟨request, invitation, (plan (.createPrivateChat request
        invitation false)).room⟩, ?_, rfl, rfl⟩
      rw [completes.vars, react_rooms]
      refine List.mem_append_right _ ?_
      rw [Operation.newRooms, if_pos heffective]
      exact List.mem_singleton_self _
    · exact .inl hafter
  · refine .inr fun heffective => ?_
    obtain ⟨chat, hchat, hsame⟩ := hroom heffective
    refine ⟨chat, ?_, hsame⟩
    rw [completes.vars, react_rooms]
    exact List.mem_append_left _ hchat

theorem SelfChecking.step
    (checking : SelfChecking plan request table before)
    (completes : Loop.Completes react before (plan operation) operation rest
      after) :
    SelfChecking plan request table after := by
  cases checking with
  | checking pending rooms marks same =>
      exact .check completes pending rooms marks same
  | reading row passes pending rooms marks same =>
      exact .read completes passes pending rooms marks same
  | listing row passes finds addressed pending rooms marks same =>
      exact .list completes passes finds addressed pending rooms marks same
  | processing accounted reaches =>
      exact .processing (accounted.step completes) (reaches.step completes)

end Steps

variable {plan : Plan} {request : Request} {table : List Invitation}
variable {direct : String → DirectRooms} {loop : AcceptLoop}

/-- No own invitation is processed exactly when the loop over the invitations
to the address reaches none whose room can be created. -/
theorem selfFree_iff
    (reached : Reachable step (Follows plan)
      (oneCall (.checkInvitation request) table direct) loop)
    (completed : loop.pending = []) :
    SelfFree loop.vars ↔
      ∀ row invitation, FansOut plan request table row invitation →
        invitation.sender = request.userId →
        (plan (.createPrivateChat request invitation false)).effective =
          false := by
  have hchecking : SelfChecking plan request table loop := by
    refine reached.invariant (SelfChecking plan request table)
      (.checking rfl rfl rfl rfl) ?_
    intro before event after hchecking hfollows hstepped
    obtain ⟨operation, rest, completes⟩ := follows_cases hfollows hstepped
    exact hchecking.step completes
  cases hchecking with
  | checking pending =>
      rw [completed] at pending
      cases pending
  | reading row passes pending =>
      rw [completed] at pending
      cases pending
  | listing row passes finds addressed pending =>
      rw [completed] at pending
      cases pending
  | processing accounted reaches =>
      constructor
      · intro free row invitation fans hown
        refine Bool.eq_false_iff.mpr fun heffective => ?_
        rcases reaches row invitation fans with hpending | hroom
        · rw [completed] at hpending
          exact absurd hpending List.not_mem_nil
        · obtain ⟨chat, hchat, hrequest, hinvitation⟩ := hroom heffective
          refine free.rooms chat hchat ?_
          rw [hrequest, hinvitation, hown]
      · intro none
        refine ⟨fun chat hchat hown => ?_, fun mark hmark hown => ?_⟩
        · obtain ⟨hrequest, hallowed⟩ := accounted.rooms chat hchat
          rw [hrequest] at hown
          obtain ⟨row, fans, heffective⟩ := hallowed hown
          rw [none row chat.invitation fans hown] at heffective
          cases heffective
        · obtain ⟨hrequest, hallowed⟩ := accounted.marks mark hmark
          rw [hrequest] at hown
          obtain ⟨row, fans, heffective⟩ := hallowed hown
          rw [none row mark.invitation fans hown] at heffective
          cases heffective

/-! Alice and Bob have both invited the address that Bob then shows. -/

def invitedByBoth : List Invitation :=
  [⟨"1", "@alice:example.org", some "bob@example.org", some "email", 100,
      some 0, none⟩,
    ⟨"2", "@bob:example.org", some "bob@example.org", some "email", 100,
      some 0, none⟩]

def bobTakes : Request := ⟨0, "1", "@bob:example.org", "Bearer b"⟩

def nothingFails : Plan := fun _ => .answered 50 "!a:example.org"

theorem selfFree_alone :
    ∃ loop, runPlan nothingFails [0, 0, 0, 0, 0, 0]
        (oneCall (.checkInvitation bobTakes) (invitedByBoth.take 1)
          fun _ => []) = some loop ∧
      loop.pending = [] ∧ SelfFree loop.vars := by
  have hrun : (runPlan nothingFails [0, 0, 0, 0, 0, 0]
      (oneCall (.checkInvitation bobTakes) (invitedByBoth.take 1)
        fun _ => [])).map (·.pending) = some [] := by decide
  obtain ⟨loop, hloop, hpending⟩ := Option.map_eq_some_iff.mp hrun
  refine ⟨loop, hloop, hpending, ?_⟩
  refine (selfFree_iff (reachable_of_runPlan .refl hloop) hpending).mpr ?_
  intro row invitation fans hown
  obtain ⟨rows, reading, hrows, hread, _⟩ := fans.listed
  obtain ⟨statement, _, rfl⟩ := Option.map_eq_some_iff.mp hrows
  obtain ⟨other, hother, _, _, rfl⟩ :=
    mem_pendingToAddress.mp (List.mem_of_getElem? hread)
  cases List.mem_singleton.mp (List.mem_filter.mp hother).1
  exact absurd hown (by decide)

/-- Bob's own invitation is accepted along with Alice's. -/
theorem accept_processes_own :
    ¬ ∀ (plan : Plan) (request : Request) (table : List Invitation)
      (direct : String → DirectRooms) (loop : AcceptLoop),
      Reachable step (Follows plan)
        (oneCall (.checkInvitation request) table direct) loop →
      loop.pending = [] → SelfFree loop.vars := by
  intro h
  have hrun : (runPlan nothingFails [0, 0, 0, 0, 0, 0, 0, 0, 0]
      (oneCall (.checkInvitation bobTakes) invitedByBoth fun _ => [])).map
        (fun loop => (loop.pending, loop.vars.rooms.map fun chat =>
          (chat.invitation.sender, chat.request.userId))) =
      some ([], [("@alice:example.org", "@bob:example.org"),
        ("@bob:example.org", "@bob:example.org")]) := by decide
  obtain ⟨loop, hloop, hends⟩ := Option.map_eq_some_iff.mp hrun
  obtain ⟨hpending, hrooms⟩ := Prod.mk.inj hends
  have hfree := h nothingFails bobTakes invitedByBoth (fun _ => []) loop
    (reachable_of_runPlan .refl hloop) hpending
  have hown : ("@bob:example.org", "@bob:example.org") ∈
      loop.vars.rooms.map fun chat =>
        (chat.invitation.sender, chat.request.userId) := by
    rw [hrooms]
    exact List.mem_cons_of_mem _ (List.mem_singleton_self _)
  obtain ⟨chat, hchat, hsame⟩ := List.mem_map.mp hown
  obtain ⟨hsender, huser⟩ := Prod.mk.inj hsame
  exact hfree.rooms chat hchat (hsender.trans huser.symm)

end TwakeKickstart.TomServer.Invitations
