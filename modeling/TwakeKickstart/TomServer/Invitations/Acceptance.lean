import Mathlib.Data.List.Nodup
import TwakeKickstart.TomServer.Invitations.Replies

namespace TwakeKickstart.TomServer.Invitations

open Library

/-! Whether `accept` tells the truth about the invitation. -/

/-- The row is marked for the user. -/
def Marked (request : Request) (table : List Invitation) : Prop :=
  ∃ row ∈ table, row.id = request.id ∧ row.accessed = some 1 ∧
    row.matrixId = some request.userId

/-- The operation is one of the steps for the row. -/
def Operation.IsStepFor (id : String) : Operation → Prop
  | .createPrivateChat _ invitation _ => invitation.id = id
  | .markAsDirectMessage _ invitation _ _ => invitation.id = id
  | .update _ invitation _ => invitation.id = id
  | _ => True

/-- A call that resolves has marked the row by then, and one that meets a
failure rejects. -/
structure Truthful (request : Request) (vars : Vars) : Prop where
  resolved : ∀ ended ∈ vars.ended, ended.answer = .resolved →
    Marked request ended.table
  failed : (∃ operation ∈ vars.failed, operation.IsStepFor request.id) →
    ∀ ended ∈ vars.ended, ∃ message, ended.answer = .rejected message

/-- The call has to reject: it does not find its invitation, or has one with a
recipient and cannot list those to the address. -/
def Stops (plan : Plan) (request : Request) (table : List Invitation) : Prop :=
  ∀ row, Finds plan request table row → truthy row.recipient = true ∧
    (plan (listOperation request row)).fails = true

/-- The invitation has no recipient and has not expired when it is looked at
again, and none of the three calls for it fails. -/
structure Carried (plan : Plan) (request : Request) (row : Invitation) :
    Prop where
  addressless : truthy row.recipient = false
  valid : (plan (.getInvitationById request)).clock 1 ≤ row.expiration
  room : (plan (roomOperation request row)).fails = false
  direct : (plan (directOperation plan request row)).fails = false
  update : (plan (updateOperation request row)).fails = false

def Operation.IsDetached : Operation → Prop
  | .createPrivateChat _ _ awaited => awaited = false
  | .markAsDirectMessage _ _ awaited _ => awaited = false
  | .update _ _ awaited => awaited = false
  | _ => False

/-- How far the call is. -/
inductive Accepting (plan : Plan) (request : Request)
    (table : List Invitation) (loop : AcceptLoop) : Prop
  | reading
      (pending : loop.pending = [.getInvitationById request])
      (ended : loop.vars.ended = []) (failed : loop.vars.failed = [])
      (same : loop.vars.table = table)
  | rejected (pending : loop.pending = [])
      (ended : ∀ ended ∈ loop.vars.ended,
        ∃ message, ended.answer = .rejected message)
      (stops : Stops plan request table)
  | listing (row : Invitation) (finds : Finds plan request table row)
      (addressed : truthy row.recipient = true)
      (pending : loop.pending = [listOperation request row])
      (ended : loop.vars.ended = []) (same : loop.vars.table = table)
  | fanned (row : Invitation) (finds : Finds plan request table row)
      (addressed : truthy row.recipient = true)
      (answers : (plan (listOperation request row)).fails = false)
      (ended : loop.vars.ended = [⟨request, .resolved, table⟩])
      (detached : ∀ operation ∈ loop.pending, operation.IsDetached)
  | creating (row : Invitation) (finds : Finds plan request table row)
      (addressless : truthy row.recipient = false)
      (valid : (plan (.getInvitationById request)).clock 1 ≤ row.expiration)
      (pending : loop.pending = [roomOperation request row])
      (ended : loop.vars.ended = []) (failed : loop.vars.failed = [])
      (same : loop.vars.table = table)
  | marking (row : Invitation) (finds : Finds plan request table row)
      (addressless : truthy row.recipient = false)
      (valid : (plan (.getInvitationById request)).clock 1 ≤ row.expiration)
      (room : (plan (roomOperation request row)).fails = false)
      (pending : loop.pending = [directOperation plan request row])
      (ended : loop.vars.ended = []) (failed : loop.vars.failed = [])
      (same : loop.vars.table = table)
  | updating (row : Invitation) (finds : Finds plan request table row)
      (addressless : truthy row.recipient = false)
      (valid : (plan (.getInvitationById request)).clock 1 ≤ row.expiration)
      (room : (plan (roomOperation request row)).fails = false)
      (direct : (plan (directOperation plan request row)).fails = false)
      (pending : loop.pending = [updateOperation request row])
      (ended : loop.vars.ended = []) (failed : loop.vars.failed = [])
      (same : loop.vars.table = table)
  | carried (row : Invitation) (finds : Finds plan request table row)
      (carried : Carried plan request row)
      (pending : loop.pending = []) (failed : loop.vars.failed = [])
      (marked : ∀ ended ∈ loop.vars.ended, Marked request ended.table)
  | swallowed (row : Invitation) (finds : Finds plan request table row)
      (addressless : truthy row.recipient = false)
      (broken : ¬ Carried plan request row)
      (pending : loop.pending = [])
      (untruthful : ¬ Truthful request loop.vars)

section Steps

variable {plan : Plan} {request : Request} {table : List Invitation}
variable {row : Invitation} {before after : AcceptLoop}
variable {operation : Operation} {rest : List Operation}

theorem Finds.unmarked (finds : Finds plan request table row)
    (ids : (table.map Invitation.id).Nodup) (named : request.id ≠ "") :
    ¬ Marked request table := by
  rintro ⟨marked, hmarked, hid, haccessed, _⟩
  have hsame : marked = row :=
    List.inj_on_of_nodup_map ids hmarked (mem_of_firstRow finds.first)
      (hid.trans (id_of_firstRow named finds.first).symm)
  have hunused := finds.unused
  rw [← hsame, Invitation.isAccessed, haccessed] at hunused
  cases hunused

theorem Accepting.read
    (completes : Loop.Completes react before (plan operation) operation rest
      after)
    (pending : before.pending = [.getInvitationById request])
    (ended : before.vars.ended = []) (failed : before.vars.failed = [])
    (same : before.vars.table = table) (ids : (table.map Invitation.id).Nodup)
    (named : request.id ≠ "") :
    Accepting plan request table after := by
  obtain ⟨rfl, rfl⟩ := completes.only pending
  have htable : after.vars.table = table := by
    rw [completes.vars, react_table, same]
    rfl
  have hended := congrArg Vars.ended completes.vars
  have hissued := completes.issued
  rw [react_ended] at hended
  rw [react_issued, List.nil_append] at hissued
  rcases @reply_first plan request table before.vars same with
    ⟨hnone, hreply⟩ | ⟨row, hfinds, hreply⟩
  · rw [hreply] at hended hissued
    refine .rejected hissued ?_ fun row finds => absurd finds (hnone row)
    rw [hended]
    simp [Vars.reject, Vars.answer, ended]
  · rw [hreply] at hended hissued
    have hfailed : after.vars.failed = [] := by
      rw [completes.vars, react_failed, hfinds.answers, failed]
      rfl
    by_cases haddressed : truthy row.recipient = true
    · rw [if_pos haddressed] at hended hissued
      exact .listing row hfinds haddressed hissued (hended.trans ended) htable
    · have haddressless := Bool.eq_false_iff.mpr haddressed
      rw [if_neg haddressed] at hended hissued
      by_cases hlate : row.expiration <
          (plan (.getInvitationById request)).clock 1
      · rw [if_pos hlate] at hended hissued
        refine .swallowed row hfinds haddressless
          (fun carried => absurd carried.valid (Nat.not_le.mpr hlate)) hissued
          fun truthful => ?_
        refine hfinds.unmarked ids named ?_
        rw [← same]
        exact truthful.resolved ⟨request, .resolved, before.vars.table⟩
          (by rw [hended]; simp [Vars.answer]) rfl
      · rw [if_neg hlate] at hended hissued
        exact .creating row hfinds haddressless (Nat.not_lt.mp hlate) hissued
          (hended.trans ended) hfailed htable

theorem Accepting.list
    (completes : Loop.Completes react before (plan operation) operation rest
      after)
    (finds : Finds plan request table row)
    (addressed : truthy row.recipient = true)
    (pending : before.pending = [listOperation request row])
    (ended : before.vars.ended = []) (same : before.vars.table = table) :
    Accepting plan request table after := by
  obtain ⟨rfl, rfl⟩ := completes.only pending
  have hended := congrArg Vars.ended completes.vars
  have hissued := completes.issued
  rw [react_ended] at hended
  rw [react_issued, List.nil_append] at hissued
  by_cases hfails : (plan (listOperation request row)).fails = true
  · rw [listOperation, reply, ← listOperation, select_failed hfails]
      at hended hissued
    refine .rejected hissued ?_ fun other others => ?_
    · rw [hended]
      simp [onPending, Vars.reject, Vars.answer, ended]
    · rw [others.same finds.first]
      exact ⟨addressed, hfails⟩
  · have hanswers := Bool.eq_false_iff.mpr hfails
    obtain ⟨rows, hrows⟩ := getInvitations_str "recipient"
      (row.recipient.getD "") before.vars.table
    rw [listOperation, reply, ← listOperation, select_healthy hanswers, hrows]
      at hended hissued
    refine .fanned row finds addressed hanswers ?_ fun other hother => ?_
    · rw [hended]
      simp [onPending, Vars.answer, ended, same]
    · rw [hissued] at hother
      obtain ⟨_, _, _, _, rfl⟩ := mem_processEach.mp hother
      rfl

theorem Accepting.detach
    (completes : Loop.Completes react before (plan operation) operation rest
      after)
    (finds : Finds plan request table row)
    (addressed : truthy row.recipient = true)
    (answers : (plan (listOperation request row)).fails = false)
    (ended : before.vars.ended = [⟨request, .resolved, table⟩])
    (detached : ∀ operation ∈ before.pending, operation.IsDetached) :
    Accepting plan request table after := by
  have hdetached := detached operation completes.mem_pending
  have hended : after.vars.ended = before.vars.ended := by
    rw [completes.vars, react_ended]
    cases operation with
    | createPrivateChat other invitation awaited =>
        subst hdetached
        simp only [reply, onRoom, Vars.processed, Bool.false_eq_true, if_false]
        repeat' split
        all_goals rfl
    | markAsDirectMessage other invitation awaited room =>
        subst hdetached
        simp only [reply, onDirect, Vars.processed, Bool.false_eq_true,
          if_false]
        repeat' split
        all_goals rfl
    | update other invitation awaited =>
        subst hdetached
        simp only [reply, onUpdate, Vars.processed, Bool.false_eq_true,
          if_false]
        repeat' split
        all_goals rfl
    | _ => exact hdetached.elim
  refine .fanned row finds addressed answers (hended.trans ended) ?_
  intro other hother
  rcases completes.mem_after hother with ⟨_, hbefore⟩ | hissued
  · exact detached other hbefore
  · cases other with
    | createPrivateChat another invitation awaited =>
        obtain ⟨_, rfl | ⟨_, rfl⟩⟩ := react_reads hissued
        · exact hdetached.elim
        · exact hdetached.elim
    | markAsDirectMessage another invitation awaited room =>
        obtain ⟨rfl, _, _⟩ := react_markAsDirectMessage hissued
        exact hdetached
    | update another invitation awaited =>
        obtain ⟨_, rfl⟩ := react_update hissued
        exact hdetached
    | _ =>
        have hquery := react_isQuery hissued rfl
        cases operation with
        | createPrivateChat another invitation awaited => cases hquery
        | markAsDirectMessage another invitation awaited room => cases hquery
        | update another invitation awaited => cases hquery
        | _ => exact hdetached.elim

theorem Accepting.swallow
    (completes : Loop.Completes react before (plan operation) operation rest
      after)
    (finds : Finds plan request table row)
    (addressless : truthy row.recipient = false)
    (pending : before.pending = [operation])
    (fails : (plan operation).fails = true)
    (broken : ¬ Carried plan request row)
    (step : operation.IsStepFor request.id)
    (stops : (reply (plan operation) operation before.vars).2 = [])
    (resolves : ∃ ended ∈ (reply (plan operation) operation
      before.vars).1.ended, ended.answer = .resolved) :
    Accepting plan request table after := by
  obtain ⟨_, rfl⟩ := completes.only pending
  refine .swallowed row finds addressless broken ?_ fun truthful => ?_
  · rw [completes.issued, react_issued, stops]
    rfl
  · obtain ⟨ended, hended, hresolved⟩ := resolves
    have hfailed : operation ∈ after.vars.failed := by
      rw [completes.vars, react_failed, fails]
      simp
    obtain ⟨message, hrejected⟩ := truthful.failed ⟨operation, hfailed, step⟩
      ended (by rw [completes.vars, react_ended]; exact hended)
    rw [hresolved] at hrejected
    cases hrejected

theorem Accepting.create
    (completes : Loop.Completes react before (plan operation) operation rest
      after)
    (finds : Finds plan request table row)
    (addressless : truthy row.recipient = false)
    (valid : (plan (.getInvitationById request)).clock 1 ≤ row.expiration)
    (pending : before.pending = [roomOperation request row])
    (ended : before.vars.ended = []) (failed : before.vars.failed = [])
    (same : before.vars.table = table) (named : request.id ≠ "") :
    Accepting plan request table after := by
  obtain ⟨rfl, rfl⟩ := completes.only pending
  by_cases hfails : (plan (roomOperation request row)).fails = true
  · refine Accepting.swallow completes finds addressless pending hfails
      (fun carried => by rw [carried.room] at hfails; cases hfails)
      (id_of_firstRow named finds.first) ?_ ?_
    · simp [roomOperation, reply, onRoom] at hfails ⊢
      simp [hfails]
    · refine ⟨⟨request, .resolved, before.vars.table⟩, ?_, rfl⟩
      simp only [roomOperation] at hfails ⊢
      simp only [reply, onRoom, hfails, if_true, Vars.processed, Vars.answer]
      split
      · simp
      · simp
  · have hroom := Bool.eq_false_iff.mpr hfails
    refine .marking row finds addressless valid hroom ?_ ?_ ?_ ?_
    · rw [completes.issued, react_issued]
      simp only [directOperation]
      simp only [roomOperation] at hroom ⊢
      simp [reply, onRoom, hroom]
    · rw [completes.vars, react_ended]
      simp only [roomOperation] at hroom ⊢
      simpa [reply, onRoom, hroom, Outcome.effective] using ended
    · rw [completes.vars, react_failed, hroom, failed]
      rfl
    · rw [completes.vars, react_table, same]
      rfl

theorem Accepting.mark
    (completes : Loop.Completes react before (plan operation) operation rest
      after)
    (finds : Finds plan request table row)
    (addressless : truthy row.recipient = false)
    (valid : (plan (.getInvitationById request)).clock 1 ≤ row.expiration)
    (room : (plan (roomOperation request row)).fails = false)
    (pending : before.pending = [directOperation plan request row])
    (ended : before.vars.ended = []) (failed : before.vars.failed = [])
    (same : before.vars.table = table) (named : request.id ≠ "") :
    Accepting plan request table after := by
  obtain ⟨rfl, rfl⟩ := completes.only pending
  by_cases hfails : (plan (directOperation plan request row)).fails = true
  · refine Accepting.swallow completes finds addressless pending hfails
      (fun carried => by rw [carried.direct] at hfails; cases hfails)
      (id_of_firstRow named finds.first) ?_ ?_
    · simp only [directOperation] at hfails ⊢
      simp [reply, onDirect, hfails]
    · refine ⟨⟨request, .resolved, before.vars.table⟩, ?_, rfl⟩
      simp only [directOperation] at hfails ⊢
      simp only [reply, onDirect, hfails, if_true, Vars.processed, Vars.answer]
      split
      · simp
      · simp
  · have hdirect := Bool.eq_false_iff.mpr hfails
    refine .updating row finds addressless valid room hdirect ?_ ?_ ?_ ?_
    · rw [completes.issued, react_issued]
      simp only [directOperation] at hdirect ⊢
      simp [reply, onDirect, hdirect, updateOperation]
    · rw [completes.vars, react_ended]
      simp only [directOperation] at hdirect ⊢
      simpa [reply, onDirect, hdirect, Outcome.effective] using ended
    · rw [completes.vars, react_failed, hdirect, failed]
      rfl
    · rw [completes.vars, react_table, same]
      rfl

theorem Accepting.finish
    (completes : Loop.Completes react before (plan operation) operation rest
      after)
    (finds : Finds plan request table row)
    (addressless : truthy row.recipient = false)
    (valid : (plan (.getInvitationById request)).clock 1 ≤ row.expiration)
    (room : (plan (roomOperation request row)).fails = false)
    (direct : (plan (directOperation plan request row)).fails = false)
    (pending : before.pending = [updateOperation request row])
    (ended : before.vars.ended = []) (failed : before.vars.failed = [])
    (same : before.vars.table = table) (named : request.id ≠ "") :
    Accepting plan request table after := by
  obtain ⟨rfl, rfl⟩ := completes.only pending
  have hid := id_of_firstRow named finds.first
  by_cases hfails : (plan (updateOperation request row)).fails = true
  · refine Accepting.swallow completes finds addressless pending hfails
      (fun carried => by rw [carried.update] at hfails; cases hfails)
      hid rfl ?_
    exact ⟨_, List.mem_append_right _ (List.mem_singleton_self _), rfl⟩
  · have hupdate := Bool.eq_false_iff.mpr hfails
    refine .carried row finds ⟨addressless, valid, room, direct, hupdate⟩
      ?_ ?_ ?_
    · rw [completes.issued]
      rfl
    · rw [completes.vars, react_failed, hupdate, failed]
      rfl
    · intro last hlast
      rw [completes.vars, react_ended] at hlast
      have hupdate' := hupdate
      simp only [updateOperation] at hupdate' hlast
      simp only [reply, onUpdate, Outcome.effective, hupdate', Bool.not_false,
        Bool.true_or, if_true, Vars.processed, Vars.answer, ended,
        List.nil_append, List.mem_singleton] at hlast
      rw [hlast]
      refine ⟨{ row with accessed := some 1, matrixId := some request.userId },
        mem_updateInvitation.mpr (.inr ⟨row, ?_, rfl, rfl⟩), hid, rfl, rfl⟩
      rw [same]
      exact mem_of_firstRow finds.first

theorem Accepting.step (accepting : Accepting plan request table before)
    (completes : Loop.Completes react before (plan operation) operation rest
      after)
    (ids : (table.map Invitation.id).Nodup) (named : request.id ≠ "") :
    Accepting plan request table after := by
  have hidle : before.pending = [] → Accepting plan request table after := by
    intro hnone
    have hmem := completes.mem_pending
    rw [hnone] at hmem
    cases hmem
  cases accepting with
  | reading pending ended failed same =>
      exact .read completes pending ended failed same ids named
  | rejected pending => exact hidle pending
  | listing row finds addressed pending ended same =>
      exact .list completes finds addressed pending ended same
  | fanned row finds addressed answers ended detached =>
      exact .detach completes finds addressed answers ended detached
  | creating row finds addressless valid pending ended failed same =>
      exact .create completes finds addressless valid pending ended failed same
        named
  | marking row finds addressless valid room pending ended failed same =>
      exact .mark completes finds addressless valid room pending ended failed
        same named
  | updating row finds addressless valid room direct pending ended failed
      same =>
      exact .finish completes finds addressless valid room direct pending
        ended failed same named
  | carried row finds carried pending => exact hidle pending
  | swallowed row finds addressless broken pending => exact hidle pending

end Steps

variable {plan : Plan} {request : Request} {table : List Invitation}
variable {direct : String → DirectRooms} {loop : AcceptLoop}

/-- `accept` is truthful exactly when it has to reject, or carries its
invitation through without a failure. -/
theorem accept_truthful_iff (ids : (table.map Invitation.id).Nodup)
    (named : request.id ≠ "")
    (reached : Reachable step (Follows plan)
      (oneCall (.getInvitationById request) table direct) loop)
    (completed : loop.pending = []) :
    Truthful request loop.vars ↔
      Stops plan request table ∨
        ∃ row, Finds plan request table row ∧ Carried plan request row := by
  have haccepting : Accepting plan request table loop := by
    refine reached.invariant (Accepting plan request table)
      (.reading rfl rfl rfl rfl) ?_
    intro before event after haccepting hfollows hstepped
    obtain ⟨operation, rest, completes⟩ := follows_cases hfollows hstepped
    exact haccepting.step completes ids named
  cases haccepting with
  | reading pending =>
      rw [completed] at pending
      cases pending
  | rejected pending ended stops =>
      refine ⟨fun _ => .inl stops, fun _ => ⟨?_, fun _ => ended⟩⟩
      intro last hlast hresolved
      obtain ⟨message, hrejected⟩ := ended last hlast
      rw [hresolved] at hrejected
      cases hrejected
  | listing row finds addressed pending =>
      rw [completed] at pending
      cases pending
  | fanned row finds addressed answers ended =>
      refine ⟨fun truthful => ?_, ?_⟩
      · exact absurd (truthful.resolved ⟨request, .resolved, table⟩
          (by rw [ended]; exact List.mem_singleton_self _) rfl)
          (finds.unmarked ids named)
      · rintro (stops | ⟨other, others, carried⟩)
        · rw [(stops row finds).2] at answers
          cases answers
        · rw [others.same finds.first] at carried
          rw [carried.addressless] at addressed
          cases addressed
  | creating row finds addressless valid pending =>
      rw [completed] at pending
      cases pending
  | marking row finds addressless valid room pending =>
      rw [completed] at pending
      cases pending
  | updating row finds addressless valid room direct pending =>
      rw [completed] at pending
      cases pending
  | carried row finds carried pending failed marked =>
      refine ⟨fun _ => .inr ⟨row, finds, carried⟩, fun _ => ⟨?_, ?_⟩⟩
      · exact fun last hlast _ => marked last hlast
      · rintro ⟨operation, hfailed, _⟩
        rw [failed] at hfailed
        cases hfailed
  | swallowed row finds addressless broken pending untruthful =>
      refine ⟨fun truthful => absurd truthful untruthful, ?_⟩
      rintro (stops | ⟨other, others, carried⟩)
      · rw [(stops row finds).1] at addressless
        cases addressless
      · rw [others.same finds.first] at carried
        exact absurd carried broken

/-! A call that is carried through, and one whose room is not created. -/

def linkTable : List Invitation :=
  [⟨"1", "@alice:example.org", none, none, 100, some 0, none⟩]

def bobAccepts : Request := ⟨0, "1", "@bob:example.org", "Bearer b"⟩

def allSucceed : Plan := fun _ => .answered 50 "!a:example.org"

def roomFails : Plan
  | .createPrivateChat _ _ _ => { clock := fun _ => 50, fails := true }
  | _ => .answered 50 ""

theorem accept_truthful_link :
    ∃ loop, runPlan allSucceed [0, 0, 0, 0]
        (oneCall (.getInvitationById bobAccepts) linkTable fun _ => []) =
        some loop ∧
      loop.pending = [] ∧ Truthful bobAccepts loop.vars := by
  have hrun : (runPlan allSucceed [0, 0, 0, 0]
      (oneCall (.getInvitationById bobAccepts) linkTable fun _ => [])).map
        (·.pending) = some [] := by decide
  obtain ⟨loop, hloop, hpending⟩ := Option.map_eq_some_iff.mp hrun
  refine ⟨loop, hloop, hpending, ?_⟩
  refine (accept_truthful_iff (by decide) (by decide)
    (reachable_of_runPlan .refl hloop) hpending).mpr (.inr ?_)
  exact ⟨⟨"1", "@alice:example.org", none, none, 100, some 0, none⟩,
    ⟨rfl, by decide, by decide, rfl⟩,
    ⟨rfl, by decide, rfl, rfl, rfl⟩⟩

/-- The call resolves though the room was not created. -/
theorem accept_hides_failure :
    ¬ ∀ (plan : Plan) (request : Request) (table : List Invitation)
      (direct : String → DirectRooms) (loop : AcceptLoop),
      (table.map Invitation.id).Nodup → request.id ≠ "" →
      Reachable step (Follows plan)
        (oneCall (.getInvitationById request) table direct) loop →
      loop.pending = [] → Truthful request loop.vars := by
  intro h
  have hrun : (runPlan roomFails [0, 0]
      (oneCall (.getInvitationById bobAccepts) linkTable fun _ => [])).map
        (fun loop => (loop.pending, loop.vars.ended.map fun ended =>
          (ended.answer, ended.table.map Invitation.accessed))) =
      some ([], [(.resolved, [some 0])]) := by decide
  obtain ⟨loop, hloop, hends⟩ := Option.map_eq_some_iff.mp hrun
  obtain ⟨hpending, hended⟩ := Prod.mk.inj hends
  have htruthful := h roomFails bobAccepts linkTable (fun _ => []) loop
    (by decide) (by decide) (reachable_of_runPlan .refl hloop) hpending
  obtain ⟨ended, hmem, hanswer⟩ := List.mem_map.mp
    (hended ▸ List.mem_singleton_self (Answer.resolved, [some (0 : Int)]))
  obtain ⟨hresolved, htable⟩ := Prod.mk.inj hanswer
  obtain ⟨row, hrow, _, haccessed, _⟩ :=
    htruthful.resolved ended hmem hresolved
  have hread : some 1 ∈ ended.table.map Invitation.accessed :=
    List.mem_map.mpr ⟨row, hrow, haccessed⟩
  rw [htable] at hread
  cases List.mem_singleton.mp hread

end TwakeKickstart.TomServer.Invitations
