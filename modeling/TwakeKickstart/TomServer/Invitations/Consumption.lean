import Mathlib.Data.List.Nodup
import TwakeKickstart.TomServer.Invitations.Replies

namespace TwakeKickstart.TomServer.Invitations

open Library

/-! Whether each invitation is consumed once when calls of `accept` overlap. -/

/-- The table as the call found it when it began has the invitation pending. -/
def PendingAtStart (vars : Vars) (request : Request)
    (invitation : InvitationResponse) : Prop :=
  ∀ table, vars.started[request.number]? = some table → ∀ row ∈ table,
    row.id = invitation.id → row.isAccessed = false

/-- The call found the invitation in the table when it began, and pending. -/
def FoundPending (vars : Vars) (request : Request)
    (invitation : InvitationResponse) : Prop :=
  ∃ table, vars.started[request.number]? = some table ∧
    ∃ row ∈ table, row.id = invitation.id ∧ row.isAccessed = false

/-- At most one room and one accepting user for each invitation, and no room
for one that was marked when the call began. -/
structure ConsumedOnce (vars : Vars) : Prop where
  rooms : (vars.rooms.map fun chat => chat.invitation.id).Nodup
  users : ∀ mark ∈ vars.marks, ∀ other ∈ vars.marks,
    mark.invitation.id = other.invitation.id →
    mark.request.userId = other.request.userId
  late : ∀ chat ∈ vars.rooms, PendingAtStart vars chat.request chat.invitation

def Operation.creates (id : String) : Operation → Bool
  | .createPrivateChat _ invitation _ => invitation.id == id
  | _ => false

def Operation.settles (id : String) : Operation → Bool
  | .markAsDirectMessage _ invitation _ _ => invitation.id == id
  | .update _ invitation _ => invitation.id == id
  | _ => false

/-- A call is in the middle of processing the invitation. -/
def Busy (loop : AcceptLoop) (id : String) : Prop :=
  ∃ operation ∈ loop.pending,
    operation.creates id = true ∨ operation.settles id = true

/-- A room was created for the invitation. -/
def HasRoom (vars : Vars) (id : String) : Prop :=
  ∃ chat ∈ vars.rooms, chat.invitation.id = id

/-- A call reads an invitation as pending only when no call is processing it,
and none broke off after the room was created. -/
def Undisturbed (loop : AcceptLoop) : Event → Prop
  | .complete index outcome => ∀ operation,
      loop.pending[index]? = some operation → ∀ invitation,
      operation.Reads outcome loop.vars invitation →
      ¬ Busy loop invitation.id ∧ ¬ HasRoom loop.vars invitation.id
  | _ => True

/-- No invitation is processed twice. -/
structure Once (loop : AcceptLoop) : Prop where
  rooms : ∀ id, (loop.vars.rooms.map fun chat => chat.invitation.id).count id +
    loop.pending.countP (Operation.creates id) ≤ 1
  marks : ∀ id, (loop.vars.marks.map fun mark => mark.invitation.id).count id +
      loop.pending.countP (Operation.settles id) ≤
    (loop.vars.rooms.map fun chat => chat.invitation.id).count id

/-- What is marked when a call begins stays marked. -/
structure Lasting (loop : AcceptLoop) : Prop where
  ids : (loop.vars.table.map Invitation.id).Nodup
  known : ∀ operation ∈ loop.pending,
    operation.request.number < loop.vars.started.length
  marked : ∀ table ∈ loop.vars.started, ∀ row ∈ table, row.isAccessed = true →
    ∀ later ∈ loop.vars.table, later.id = row.id → later.isAccessed = true
  same : ∀ table ∈ loop.vars.started,
    table.map Invitation.id = loop.vars.table.map Invitation.id
  asked : ∀ request invitation awaited,
    .createPrivateChat request invitation awaited ∈ loop.pending →
    FoundPending loop.vars request invitation
  rooms : ∀ chat ∈ loop.vars.rooms,
    FoundPending loop.vars chat.request chat.invitation

section Steps

variable {request : Request} {invitation : InvitationResponse}
variable {awaited : Bool} {outcome : Outcome} {operation : Operation}
variable {vars : Vars} {clock : Nat → Nat} {before after : AcceptLoop}
variable {rest : List Operation}

theorem countP_processEach_le (id : String)
    (invitations : List InvitationResponse) :
    (processEach request clock invitations).countP (Operation.creates id) ≤
      (invitations.map InvitationResponse.id).count id := by
  induction invitations generalizing clock with
  | nil => simp [processEach]
  | cons first rest ih =>
      have hrest := @ih fun reading => clock (reading + 1)
      rw [processEach, List.countP_append, List.map_cons, List.count_cons]
      have hfirst : (processInvitation request false (clock 0) first).countP
          (Operation.creates id) ≤ if first.id == id then 1 else 0 := by
        unfold processInvitation
        split
        · simp
        · simp [List.countP_cons, Operation.creates]
      omega

theorem length_onInvitation_le (request : Request)
    (rows : Option (List Invitation)) :
    (onInvitation request clock rows vars).2.length ≤ 1 := by
  have hprocess : ∀ now invitation,
      (processInvitation request true now invitation).length ≤ 1 := by
    intro now invitation
    unfold processInvitation
    split
    · exact Nat.zero_le 1
    · exact Nat.le_refl 1
  unfold onInvitation
  split
  · dsimp only
    repeat' split
    all_goals first
      | exact Nat.zero_le 1
      | exact Nat.le_refl 1
      | exact hprocess _ _
  · exact Nat.zero_le 1

/-- One reply asks for at most one room for an invitation, and only for one that
it shows as pending. -/
theorem creates_issued (distinct : (vars.table.map Invitation.id).Nodup)
    (id : String) :
    (react outcome operation vars).2.countP (Operation.creates id) = 0 ∨
    (react outcome operation vars).2.countP (Operation.creates id) = 1 ∧
      ∃ invitation, invitation.id = id ∧
        operation.Reads outcome vars invitation := by
  rcases Nat.eq_zero_or_pos
    ((react outcome operation vars).2.countP (Operation.creates id)) with
    hnone | hsome
  · exact .inl hnone
  · obtain ⟨issued, hissued, hcreates⟩ := List.countP_pos_iff.mp hsome
    cases issued with
    | createPrivateChat request invitation awaited =>
        obtain ⟨hreads, hquery⟩ := react_reads hissued
        refine .inr ⟨Nat.le_antisymm ?_ hsome,
          invitation, by simpa [Operation.creates] using hcreates, hreads⟩
        rcases hquery with rfl | ⟨address, rfl⟩
        · exact Nat.le_trans List.countP_le_length (length_onInvitation_le _ _)
        · simp only [react, reply, onPending]
          split
          · simp
          · rename_i rows hselect
            refine Nat.le_trans (countP_processEach_le id _) ?_
            refine List.nodup_iff_count_le_one.mp ?_ id
            have hrows := (select_sublist hselect).map Invitation.id
            have hpending : ((pendingToAddress address rows).map
                InvitationResponse.id).Sublist (rows.map Invitation.id) := by
              unfold pendingToAddress
              rw [List.map_map]
              exact List.filter_sublist.map Invitation.id
            exact distinct.sublist (hpending.trans hrows)
    | _ => cases hcreates

theorem settles_query {id : String}
    (query : ∀ request invitation awaited room,
      operation ≠ .createPrivateChat request invitation awaited ∧
      operation ≠ .markAsDirectMessage request invitation awaited room) :
    (react outcome operation vars).2.countP (Operation.settles id) = 0 := by
  refine List.countP_eq_zero.mpr fun issued hissued hsettles => ?_
  cases issued with
  | markAsDirectMessage request invitation awaited room =>
      exact (query request invitation awaited room).1
        (react_markAsDirectMessage hissued).1
  | update request invitation awaited =>
      obtain ⟨room, hmark⟩ := react_update hissued
      exact (query request invitation awaited room).2 hmark
  | _ => cases hsettles

theorem creates_balance (outcome : Outcome) (operation : Operation)
    (id : String) :
    ((operation.newRooms outcome).map fun chat => chat.invitation.id).count id ≤
      if operation.creates id then 1 else 0 := by
  cases operation with
  | createPrivateChat request invitation awaited =>
      simp only [Operation.newRooms]
      split
      · simp [Operation.creates, List.count_cons]
      · simp
  | _ => simp [Operation.newRooms]

theorem settles_balance (outcome : Outcome) (operation : Operation)
    (vars : Vars) (id : String) :
    ((operation.newMarks outcome).map fun mark => mark.invitation.id).count id +
        (react outcome operation vars).2.countP (Operation.settles id) ≤
      ((operation.newRooms outcome).map fun chat =>
          chat.invitation.id).count id +
        if operation.settles id then 1 else 0 := by
  cases operation with
  | checkInvitation request =>
      rw [settles_query]
      · exact Nat.zero_le _
      · exact fun _ _ _ _ => ⟨nofun, nofun⟩
  | getInvitationById request =>
      rw [settles_query]
      · exact Nat.zero_le _
      · exact fun _ _ _ _ => ⟨nofun, nofun⟩
  | listPending request address =>
      rw [settles_query]
      · exact Nat.zero_le _
      · exact fun _ _ _ _ => ⟨nofun, nofun⟩
  | createPrivateChat request invitation awaited =>
      simp only [react, reply, onRoom, Operation.newMarks, Operation.newRooms]
      by_cases hfails : outcome.fails = true
      · simp [hfails]
      · simp [hfails, Outcome.effective, List.countP_cons, List.count_cons,
          Operation.settles]
  | markAsDirectMessage request invitation awaited room =>
      simp only [react, reply, onDirect, Operation.newMarks, Operation.newRooms]
      by_cases hfails : outcome.fails = true
      · simp [hfails]
      · simp [hfails, List.countP_cons, Operation.settles]
  | update request invitation awaited =>
      simp only [react, reply, onUpdate, Operation.newMarks, Operation.newRooms]
      by_cases heffective : outcome.effective = true
      · simp [heffective, List.count_cons, Operation.settles]
      · simp [heffective]

theorem Once.begin (once : Once before) {first : Operation}
    (creates : ∀ id, first.creates id = false)
    (settles : ∀ id, first.settles id = false) :
    Once (AcceptLoop.begin before first) := by
  refine ⟨fun id => ?_, fun id => ?_⟩
  · have hrooms := once.rooms id
    simpa [AcceptLoop.begin, List.countP_cons, creates id] using hrooms
  · have hmarks := once.marks id
    simpa [AcceptLoop.begin, List.countP_cons, settles id] using hmarks

theorem Once.complete (once : Once before)
    (distinct : (before.vars.table.map Invitation.id).Nodup)
    (completes : Loop.Completes react before outcome operation rest after)
    (undisturbed : ∀ invitation,
      operation.Reads outcome before.vars invitation →
      ¬ Busy before invitation.id ∧ ¬ HasRoom before.vars invitation.id) :
    Once after := by
  refine ⟨fun id => ?_, fun id => ?_⟩
  · have hrooms := once.rooms id
    have hpending := completes.countP_balance (Operation.creates id)
    have hcreates := creates_balance outcome operation id
    rw [completes.vars, react_rooms, List.map_append, List.count_append]
    rcases @creates_issued outcome operation before.vars distinct id with
      hissued | ⟨hissued, invitation, rfl, hreads⟩
    · omega
    · obtain ⟨hbusy, hroom⟩ := undisturbed invitation hreads
      have hnone : before.pending.countP (Operation.creates invitation.id) =
          0 := by
        refine List.countP_eq_zero.mpr fun other hother hsame => ?_
        exact hbusy ⟨other, hother, .inl hsame⟩
      have hcount : (before.vars.rooms.map fun chat =>
          chat.invitation.id).count invitation.id = 0 := by
        refine List.count_eq_zero.mpr fun hmem => hroom ?_
        obtain ⟨chat, hchat, hsame⟩ := List.mem_map.mp hmem
        exact ⟨chat, hchat, hsame⟩
      omega
  · have hmarks := once.marks id
    have hpending := completes.countP_balance (Operation.settles id)
    have hsettles := settles_balance outcome operation before.vars id
    rw [completes.vars, react_rooms, react_marks, List.map_append,
      List.count_append, List.map_append, List.count_append]
    omega

theorem FoundPending.begin {first : Operation}
    (found : FoundPending before.vars request invitation) :
    FoundPending (AcceptLoop.begin before first).vars request invitation := by
  obtain ⟨table, htable, hrow⟩ := found
  refine ⟨table, ?_, hrow⟩
  change (before.vars.started ++ [before.vars.table])[request.number]? =
    some table
  obtain ⟨hknown, -⟩ := List.getElem?_eq_some_iff.mp htable
  rw [List.getElem?_append_left hknown]
  exact htable

theorem Lasting.pendingAtStart (lasting : Lasting before)
    (found : FoundPending before.vars request invitation) :
    PendingAtStart before.vars request invitation := by
  obtain ⟨table, htable, row, hrow, hid, hpending⟩ := found
  intro other hother current hcurrent hsame
  rw [htable] at hother
  cases hother
  have hids : (table.map Invitation.id).Nodup := by
    rw [lasting.same table (List.mem_of_getElem? htable)]
    exact lasting.ids
  rw [List.inj_on_of_nodup_map hids hcurrent hrow (hsame.trans hid.symm)]
  exact hpending

theorem Lasting.begin (lasting : Lasting before) {first : Operation}
    (number : first.request.number = before.vars.started.length)
    (query : ∀ request invitation awaited,
      first ≠ .createPrivateChat request invitation awaited) :
    Lasting (AcceptLoop.begin before first) := by
  have hlength : (AcceptLoop.begin before first).vars.started.length =
      before.vars.started.length + 1 := List.length_append
  refine ⟨lasting.ids, ?_, ?_, ?_, ?_, ?_⟩
  · intro other hother
    rw [hlength]
    rcases List.mem_append.mp hother with hold | hnew
    · exact Nat.lt_succ_of_lt (lasting.known other hold)
    · rw [List.mem_singleton.mp hnew, number]
      exact Nat.lt_succ_self _
  · intro table htable row hrow hmarked later hlater hid
    rcases List.mem_append.mp htable with hold | hnew
    · exact lasting.marked table hold row hrow hmarked later hlater hid
    · rw [List.mem_singleton.mp hnew] at hrow
      have hsame := List.inj_on_of_nodup_map lasting.ids hlater hrow hid
      rw [hsame]
      exact hmarked
  · intro table htable
    rcases List.mem_append.mp htable with hold | hnew
    · exact lasting.same table hold
    · rw [List.mem_singleton.mp hnew]
      rfl
  · intro other invitation awaited hasked
    rcases List.mem_append.mp hasked with hold | hnew
    · exact (lasting.asked other invitation awaited hold).begin
    · exact absurd (List.mem_singleton.mp hnew).symm (query _ _ _)
  · exact fun chat hchat => (lasting.rooms chat hchat).begin

theorem unmarked_of_reads (h : operation.Reads outcome vars invitation) :
    ∃ row ∈ vars.table, row.id = invitation.id ∧ row.isAccessed = false := by
  cases operation with
  | getInvitationById request =>
      obtain ⟨row, others, hselect, rfl, hpending, _, _⟩ := h
      exact ⟨row, mem_select hselect row List.mem_cons_self, rfl, hpending⟩
  | listPending request address =>
      obtain ⟨rows, reading, hselect, hread, _⟩ := h
      obtain ⟨row, hrow, hpending, _, rfl⟩ :=
        mem_pendingToAddress.mp (List.mem_of_getElem? hread)
      exact ⟨row, mem_select hselect row hrow, rfl, hpending⟩
  | _ => exact h.elim

theorem Lasting.complete (lasting : Lasting before)
    (completes : Loop.Completes react before outcome operation rest after) :
    Lasting after := by
  have hstarted : after.vars.started = before.vars.started := by
    rw [completes.vars, react_started]
  have hknown := lasting.known operation completes.mem_pending
  refine ⟨?_, ?_, ?_, ?_, ?_, ?_⟩
  · rw [completes.vars, react_table, ids_newTable]
    exact lasting.ids
  · intro other hother
    rw [hstarted]
    rcases completes.mem_after hother with ⟨_, hbefore⟩ | hissued
    · exact lasting.known other hbefore
    · rw [request_issued hissued]
      exact hknown
  · intro table htable row hrow hmarked later hlater hid
    rw [hstarted] at htable
    rw [completes.vars, react_table] at hlater
    refine accessed_newTable outcome operation ?_ later hlater hid
    exact fun current hcurrent hsame =>
      lasting.marked table htable row hrow hmarked current hcurrent hsame
  · intro table htable
    rw [hstarted] at htable
    rw [completes.vars, react_table, ids_newTable]
    exact lasting.same table htable
  · intro request invitation awaited hasked
    unfold FoundPending
    rw [hstarted]
    rcases completes.mem_after hasked with ⟨_, hbefore⟩ | hissued
    · exact lasting.asked request invitation awaited hbefore
    · obtain ⟨hreads, _⟩ := react_reads hissued
      obtain ⟨current, hcurrent, hid, hunmarked⟩ := unmarked_of_reads hreads
      have hnumber : request.number < before.vars.started.length := by
        have hrequest : request = operation.request := request_issued hissued
        rw [hrequest]
        exact hknown
      have hstart := List.getElem_mem hnumber
      -- The table of the beginning has the rows of the present one by name.
      have hthere : invitation.id ∈
          (before.vars.started[request.number]).map Invitation.id := by
        rw [lasting.same _ hstart, ← hid]
        exact List.mem_map_of_mem hcurrent
      obtain ⟨row, hrow, hsame⟩ := List.mem_map.mp hthere
      refine ⟨_, List.getElem?_eq_getElem hnumber, row, hrow, hsame, ?_⟩
      rw [← Bool.not_eq_true]
      intro hmarked
      have hlast := lasting.marked _ hstart row hrow hmarked current hcurrent
        (hid.trans hsame.symm)
      rw [hunmarked] at hlast
      exact Bool.false_ne_true hlast
  · intro chat hchat
    unfold FoundPending
    rw [hstarted]
    rw [completes.vars, react_rooms] at hchat
    rcases List.mem_append.mp hchat with hold | hnew
    · exact lasting.rooms chat hold
    · cases operation with
      | createPrivateChat request invitation awaited =>
          simp only [Operation.newRooms] at hnew
          split at hnew
          · rw [List.mem_singleton.mp hnew]
            exact lasting.asked request invitation awaited
              completes.mem_pending
          · cases hnew
      | _ => cases hnew

end Steps

variable {table : List Invitation} {direct : String → DirectRooms}
variable {loop : AcceptLoop}

theorem lasting_step {before after : AcceptLoop} {event : Event}
    (lasting : Lasting before) (stepped : step before event = some after) :
    Lasting after := by
  cases event with
  | request id userId authorization =>
      cases stepped
      exact lasting.begin rfl (fun _ _ _ h => by cases h)
  | accept id userId authorization =>
      cases stepped
      exact lasting.begin rfl (fun _ _ _ h => by cases h)
  | complete index outcome =>
      have hcompleted : before.complete react index outcome = some after :=
        stepped
      obtain ⟨operation, _, completes⟩ := Loop.complete_cases hcompleted
      exact lasting.complete completes

theorem lasting_start (ids : (table.map Invitation.id).Nodup) :
    Lasting (startLoop table direct) :=
  ⟨ids, fun _ h => absurd h List.not_mem_nil,
    fun _ h => absurd h List.not_mem_nil,
    fun _ h => absurd h List.not_mem_nil,
    fun _ _ _ h => absurd h List.not_mem_nil,
    fun _ h => absurd h List.not_mem_nil⟩

theorem once_step {before after : AcceptLoop} {event : Event}
    (once : Once before)
    (distinct : (before.vars.table.map Invitation.id).Nodup)
    (undisturbed : Undisturbed before event)
    (stepped : step before event = some after) : Once after := by
  cases event with
  | request id userId authorization =>
      cases stepped
      exact once.begin (fun _ => rfl) (fun _ => rfl)
  | accept id userId authorization =>
      cases stepped
      exact once.begin (fun _ => rfl) (fun _ => rfl)
  | complete index outcome =>
      have hcompleted : before.complete react index outcome = some after :=
        stepped
      obtain ⟨operation, hoperation, completes⟩ :=
        Loop.complete_cases hcompleted
      exact once.complete distinct completes (undisturbed operation hoperation)

/-- In any run, a call creates a room only for an invitation that was there and
pending when it began. -/
theorem no_room_once_marked (ids : (table.map Invitation.id).Nodup)
    (reached : Reachable step (fun _ _ => True) (startLoop table direct)
      loop) :
    ∀ chat ∈ loop.vars.rooms,
      FoundPending loop.vars chat.request chat.invitation := by
  have hlasting := reached.invariant Lasting (lasting_start ids)
    fun _ _ _ h _ hstepped => lasting_step h hstepped
  exact hlasting.rooms

/-- Invitations are consumed at most once when no call reads one as pending that
is being processed, or whose processing broke off. -/
theorem invitations_consumedOnce (ids : (table.map Invitation.id).Nodup)
    (reached : Reachable step Undisturbed (startLoop table direct) loop) :
    ConsumedOnce loop.vars := by
  have hboth : Lasting loop ∧ Once loop := by
    refine reached.invariant (fun loop => Lasting loop ∧ Once loop)
      ⟨lasting_start ids, fun _ => by simp [startLoop],
        fun _ => by simp [startLoop]⟩ ?_
    rintro before event after ⟨hlasting, honce⟩ hundisturbed hstepped
    exact ⟨lasting_step hlasting hstepped,
      once_step honce hlasting.ids hundisturbed hstepped⟩
  obtain ⟨hlasting, honce⟩ := hboth
  have hrooms : ∀ id, (loop.vars.rooms.map fun chat =>
      chat.invitation.id).count id ≤ 1 := fun id =>
    Nat.le_trans (Nat.le_add_right _ _) (honce.rooms id)
  have hmarks : (loop.vars.marks.map fun mark => mark.invitation.id).Nodup :=
    List.nodup_iff_count_le_one.mpr fun id =>
      Nat.le_trans (Nat.le_trans (Nat.le_add_right _ _) (honce.marks id))
        (hrooms id)
  refine ⟨List.nodup_iff_count_le_one.mpr hrooms, ?_,
    fun chat hchat => hlasting.pendingAtStart (hlasting.rooms chat hchat)⟩
  intro mark hmark other hother hsame
  rw [List.inj_on_of_nodup_map hmarks hmark hother hsame]

/-! A call after the other, and two that overlap. -/

def sampleInvitation (id sender : String) (recipient : Option String) :
    Invitation where
  id := id
  sender := sender
  recipient := recipient
  medium := none
  expiration := 100
  accessed := some 0
  matrixId := none

def sampleTable : List Invitation :=
  [sampleInvitation "1" "@alice:example.org" (some "bob@example.org"),
    sampleInvitation "2" "@carol:example.org" (some "bob@example.org")]

/-- A query finds nobody at work, and every room belongs to a row that is
marked. -/
def quietly (loop : AcceptLoop) : Event → Bool
  | .complete index _ =>
      !loop.pending[index]?.any Operation.isQuery ||
        loop.pending.all Operation.isQuery &&
          loop.vars.rooms.all fun chat => loop.vars.table.all fun row =>
            row.id != chat.invitation.id || row.isAccessed
  | _ => true

theorem undisturbed_of_quietly {loop : AcceptLoop} {event : Event}
    (quiet : quietly loop event = true) : Undisturbed loop event := by
  cases event with
  | complete index outcome =>
      intro operation hoperation invitation hreads
      have hquery : operation.isQuery = true := by
        cases operation with
        | createPrivateChat request other awaited => exact hreads.elim
        | markAsDirectMessage request other awaited room => exact hreads.elim
        | update request other awaited => exact hreads.elim
        | _ => rfl
      simp only [quietly, hoperation, Option.any_some, hquery, Bool.not_true,
        Bool.false_or, Bool.and_eq_true, List.all_eq_true] at quiet
      obtain ⟨hidle, hrooms⟩ := quiet
      refine ⟨?_, ?_⟩
      · rintro ⟨other, hother, hbusy⟩
        have hidle := hidle other hother
        cases other with
        | createPrivateChat request another awaited => cases hidle
        | markAsDirectMessage request another awaited room => cases hidle
        | update request another awaited => cases hidle
        | _ => simp [Operation.creates, Operation.settles] at hbusy
      · rintro ⟨chat, hchat, hsame⟩
        obtain ⟨row, hrow, hid, hunmarked⟩ := unmarked_of_reads hreads
        have hmarked := hrooms chat hchat row hrow
        rw [hid, hsame, hunmarked] at hmarked
        simp at hmarked
  | request id userId authorization => trivial
  | accept id userId authorization => trivial

def oneAfterTheOther : List Event :=
  [.accept "1" "@bob:example.org" "Bearer b", .complete 0 (.answered 50 ""),
    .complete 0 (.answered 50 ""), .complete 0 (.answered 50 "!a:example.org"),
    .complete 0 (.answered 50 "!c:example.org"), .complete 0 (.answered 50 ""),
    .complete 0 (.answered 50 ""), .complete 0 (.answered 50 ""), .complete 0 (.answered 50 ""),
    .accept "2" "@bob:example.org" "Bearer b", .complete 0 (.answered 50 "")]

theorem invitations_consumedOnce_sample :
    ∃ loop, runEvents step quietly oneAfterTheOther
        (startLoop sampleTable fun _ => []) = some loop ∧
      loop.vars.marks.length = 2 ∧ ConsumedOnce loop.vars := by
  have hrun : (runEvents step quietly oneAfterTheOther
      (startLoop sampleTable fun _ => [])).map (·.vars.marks.length) =
      some 2 := by decide
  obtain ⟨loop, hloop, hmarks⟩ := Option.map_eq_some_iff.mp hrun
  exact ⟨loop, hloop, hmarks, invitations_consumedOnce (by decide)
    (reachable_of_runEvents (fun _ _ => undisturbed_of_quietly) hloop)⟩

def sideBySide : List Event :=
  [.accept "1" "@bob:example.org" "Bearer b",
    .accept "2" "@bob:example.org" "Bearer b", .complete 0 (.answered 50 ""),
    .complete 0 (.answered 50 ""), .complete 0 (.answered 50 ""), .complete 0 (.answered 50 ""),
    .complete 0 (.answered 50 "!a:example.org"),
    .complete 1 (.answered 50 "!b:example.org")]

/-- Of two calls that overlap, the second begins before the first has marked
anything. -/
theorem no_room_once_marked_sideBySide :
    ∃ loop, runEvents step (fun _ _ => true) sideBySide
        (startLoop sampleTable fun _ => []) = some loop ∧
      loop.vars.rooms.length = 2 ∧
      ∀ chat ∈ loop.vars.rooms,
        FoundPending loop.vars chat.request chat.invitation := by
  have hrun : (runEvents step (fun _ _ => true) sideBySide
      (startLoop sampleTable fun _ => [])).map (·.vars.rooms.length) =
      some 2 := by decide
  obtain ⟨loop, hloop, hrooms⟩ := Option.map_eq_some_iff.mp hrun
  exact ⟨loop, hloop, hrooms, no_room_once_marked (by decide)
    (reachable_of_runEvents (fun _ _ _ => trivial) hloop)⟩

/-- Two calls that overlap create two rooms for one invitation. -/
theorem overlapping_accepts_create_two :
    ¬ ∀ (table : List Invitation) (direct : String → DirectRooms)
      (loop : AcceptLoop), (table.map Invitation.id).Nodup →
      Reachable step (fun _ _ => True) (startLoop table direct) loop →
      ConsumedOnce loop.vars := by
  intro h
  have hrun : (runEvents step (fun _ _ => true) sideBySide
      (startLoop sampleTable fun _ => [])).map
        (·.vars.rooms.map fun chat => chat.invitation.id) =
      some ["1", "1"] := by decide
  obtain ⟨loop, hloop, hrooms⟩ := Option.map_eq_some_iff.mp hrun
  have honce := h sampleTable _ loop (by decide)
    (reachable_of_runEvents (fun _ _ _ => trivial) hloop)
  have hnodup := honce.rooms
  rw [hrooms] at hnodup
  exact absurd hnodup (by decide)

end TwakeKickstart.TomServer.Invitations
