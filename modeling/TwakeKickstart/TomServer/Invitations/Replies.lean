import TwakeKickstart.TomServer.Invitations.Service

namespace TwakeKickstart.TomServer.Invitations

open Library

/-! What a reply reads, changes and sets going. -/

/-- The reply shows the call a pending invitation that has not expired: the
requested one when it has no recipient, those to the address otherwise. -/
def Operation.Reads (outcome : Outcome) (vars : Vars)
    (invitation : InvitationResponse) : Operation → Prop
  | .getInvitationById request =>
      ∃ row rest, select outcome [("id", .str request.id)] vars =
          some (row :: rest) ∧
        invitation = row.response ∧ row.isAccessed = false ∧
        truthy row.recipient = false ∧ outcome.clock 1 ≤ row.expiration
  | .listPending _ address =>
      ∃ rows reading, select outcome [("recipient", .str address)] vars =
          some rows ∧
        (pendingToAddress address rows)[reading]? = some invitation ∧
        outcome.clock reading ≤ invitation.expiration
  | _ => False

def Operation.newRooms (outcome : Outcome) : Operation → List PrivateChat
  | .createPrivateChat request invitation _ =>
      if outcome.effective then [⟨request, invitation, outcome.room⟩] else []
  | _ => []

def Operation.newMarks (outcome : Outcome) : Operation → List Mark
  | .update request invitation _ =>
      if outcome.effective then [⟨request, invitation⟩] else []
  | _ => []

def Operation.newTable (outcome : Outcome) (table : List Invitation) :
    Operation → List Invitation
  | .update request invitation _ =>
      if outcome.effective then
        updateInvitation request.userId invitation.id table
      else table
  | _ => table

def Operation.newDirect (outcome : Outcome) (direct : String → DirectRooms) :
    Operation → String → DirectRooms
  | .markAsDirectMessage request invitation _ room =>
      if outcome.effective then
        Function.update direct request.userId [(invitation.sender, [room])]
      else direct
  | _ => direct

theorem newRooms_cases (outcome : Outcome) (operation : Operation) :
    operation.newRooms outcome = [] ∨
      ∃ request invitation awaited,
        operation = .createPrivateChat request invitation awaited ∧
        outcome.effective = true ∧
        operation.newRooms outcome = [⟨request, invitation, outcome.room⟩] := by
  cases operation with
  | createPrivateChat request invitation awaited =>
      simp only [Operation.newRooms]
      split
      · rename_i heffective
        exact .inr ⟨request, invitation, awaited, rfl, heffective, rfl⟩
      · exact .inl rfl
  | _ => exact .inl rfl

section Replies

variable {request : Request} {invitation : InvitationResponse}
variable {awaited : Bool} {outcome : Outcome} {operation issued : Operation}
variable {vars : Vars} {clock : Nat → Nat}

theorem mem_processInvitation {now : Nat} :
    issued ∈ processInvitation request awaited now invitation ↔
      now ≤ invitation.expiration ∧
        issued = .createPrivateChat request invitation awaited := by
  unfold processInvitation
  split
  · rename_i hexpired
    simp [Nat.not_le.mpr hexpired]
  · rename_i hvalid
    simp [Nat.not_lt.mp hvalid]

theorem mem_processEach {invitations : List InvitationResponse} :
    issued ∈ processEach request clock invitations ↔
      ∃ reading invitation, invitations[reading]? = some invitation ∧
        clock reading ≤ invitation.expiration ∧
        issued = .createPrivateChat request invitation false := by
  induction invitations generalizing clock with
  | nil => simp [processEach]
  | cons first rest ih =>
      rw [processEach, List.mem_append, mem_processInvitation, ih]
      constructor
      · rintro (⟨hvalid, rfl⟩ | ⟨reading, invitation, hread, hvalid, rfl⟩)
        · exact ⟨0, first, rfl, hvalid, rfl⟩
        · exact ⟨reading + 1, invitation, hread, hvalid, rfl⟩
      · rintro ⟨reading, invitation, hread, hvalid, rfl⟩
        cases reading with
        | zero =>
            cases hread
            exact .inl ⟨hvalid, rfl⟩
        | succ reading =>
            exact .inr ⟨reading, invitation, hread, hvalid, rfl⟩

/-- Everything that the reply to a reading operation can set going. -/
theorem react_reads
    (h : .createPrivateChat request invitation awaited ∈
      (react outcome operation vars).2) :
    operation.Reads outcome vars invitation ∧
      (operation = .getInvitationById request ∨
        ∃ address, operation = .listPending request address) := by
  cases operation with
  | checkInvitation other =>
      simp only [react, reply, onCheck] at h
      repeat' split at h
      all_goals simp at h
  | getInvitationById other =>
      simp only [react, reply, onInvitation] at h
      split at h
      · rename_i row rest hselect
        split at h
        · simp at h
        · split at h
          · simp at h
          · rename_i haccessed
            split at h
            · simp at h
            · rename_i hrecipient
              split at h
              · simp at h
              · obtain ⟨hvalid, hsame⟩ := mem_processInvitation.mp h
                cases hsame
                exact ⟨⟨row, rest, hselect, rfl, Bool.eq_false_iff.mpr haccessed,
                  Bool.eq_false_iff.mpr hrecipient, hvalid⟩, .inl rfl⟩
      · simp at h
  | listPending other address =>
      simp only [react, reply, onPending] at h
      split at h
      · simp at h
      · rename_i rows hselect
        obtain ⟨reading, _, hread, hvalid, hsame⟩ := mem_processEach.mp h
        cases hsame
        exact ⟨⟨rows, reading, hselect, hread, hvalid⟩, .inr ⟨address, rfl⟩⟩
  | createPrivateChat other another wait =>
      simp only [react, reply, onRoom] at h
      split at h
      · simp at h
      · simp at h
  | markAsDirectMessage other another wait room =>
      simp only [react, reply, onDirect] at h
      split at h
      · simp at h
      · simp at h
  | update other another wait =>
      simp only [react, reply, onUpdate] at h
      simp at h

/-- A room is marked after it was created. -/
theorem react_markAsDirectMessage {room : String}
    (h : .markAsDirectMessage request invitation awaited room ∈
      (react outcome operation vars).2) :
    operation = .createPrivateChat request invitation awaited ∧
      room = outcome.room ∧ outcome.fails = false := by
  cases operation with
  | checkInvitation other =>
      simp only [react, reply, onCheck] at h
      repeat' split at h
      all_goals simp at h
  | getInvitationById other =>
      simp only [react, reply, onInvitation] at h
      repeat' split at h
      all_goals first
        | simp at h
          done
        | cases (mem_processInvitation.mp h).2
  | listPending other address =>
      simp only [react, reply, onPending] at h
      split at h
      · simp at h
      · obtain ⟨_, _, _, _, hsame⟩ := mem_processEach.mp h
        cases hsame
  | createPrivateChat other another wait =>
      simp only [react, reply, onRoom] at h
      split at h
      · simp at h
      · rename_i hfails
        cases List.mem_singleton.mp h
        exact ⟨rfl, rfl, Bool.eq_false_iff.mpr hfails⟩
  | markAsDirectMessage other another wait place =>
      simp only [react, reply, onDirect] at h
      split at h
      · simp at h
      · simp at h
  | update other another wait =>
      simp only [react, reply, onUpdate] at h
      simp at h

theorem react_update
    (h : .update request invitation awaited ∈
      (react outcome operation vars).2) :
    ∃ room, operation =
      .markAsDirectMessage request invitation awaited room := by
  cases operation with
  | checkInvitation other =>
      simp only [react, reply, onCheck] at h
      repeat' split at h
      all_goals simp at h
  | getInvitationById other =>
      simp only [react, reply, onInvitation] at h
      repeat' split at h
      all_goals first
        | simp at h
          done
        | cases (mem_processInvitation.mp h).2
  | listPending other address =>
      simp only [react, reply, onPending] at h
      split at h
      · simp at h
      · obtain ⟨_, _, _, _, hsame⟩ := mem_processEach.mp h
        cases hsame
  | createPrivateChat other another wait =>
      simp only [react, reply, onRoom] at h
      split at h
      · simp at h
      · simp at h
  | markAsDirectMessage other another wait place =>
      simp only [react, reply, onDirect] at h
      split at h
      · simp at h
      · cases List.mem_singleton.mp h
        exact ⟨place, rfl⟩
  | update other another wait =>
      simp only [react, reply, onUpdate] at h
      simp at h

theorem react_isQuery (h : issued ∈ (react outcome operation vars).2)
    (query : issued.isQuery = true) : operation.isQuery = true := by
  cases operation with
  | createPrivateChat request invitation awaited =>
      simp only [react, reply, onRoom] at h
      split at h
      · simp at h
      · rw [List.mem_singleton.mp h] at query
        cases query
  | markAsDirectMessage request invitation awaited room =>
      simp only [react, reply, onDirect] at h
      split at h
      · simp at h
      · rw [List.mem_singleton.mp h] at query
        cases query
  | update request invitation awaited =>
      simp only [react, reply, onUpdate] at h
      simp at h
  | _ => rfl

theorem request_issued (h : issued ∈ (react outcome operation vars).2) :
    issued.request = operation.request := by
  cases operation with
  | checkInvitation request =>
      simp only [react, reply, onCheck] at h
      repeat' split at h
      all_goals simp at h
      rw [h]
      rfl
  | getInvitationById request =>
      simp only [react, reply, onInvitation] at h
      repeat' split at h
      all_goals first
        | simp at h
          done
        | rw [List.mem_singleton.mp h]
          rfl
        | rw [(mem_processInvitation.mp h).2]
          rfl
  | listPending request address =>
      simp only [react, reply, onPending] at h
      split at h
      · simp at h
      · obtain ⟨_, _, _, _, rfl⟩ := mem_processEach.mp h
        rfl
  | createPrivateChat request invitation awaited =>
      simp only [react, reply, onRoom] at h
      split at h
      · simp at h
      · rw [List.mem_singleton.mp h]
        rfl
  | markAsDirectMessage request invitation awaited room =>
      simp only [react, reply, onDirect] at h
      split at h
      · simp at h
      · rw [List.mem_singleton.mp h]
        rfl
  | update request invitation awaited =>
      simp only [react, reply, onUpdate] at h
      simp at h

/-! What a reply changes. -/

theorem answer_ended (vars : Vars) (request : Request) (answer : Answer) :
    ∃ ended, vars.answer request answer = { vars with ended } :=
  ⟨_, rfl⟩

theorem processed_ended (vars : Vars) (request : Request) (awaited : Bool) :
    ∃ ended, vars.processed request awaited = { vars with ended } := by
  cases awaited with
  | false => exact ⟨vars.ended, rfl⟩
  | true => exact answer_ended vars request .resolved

theorem query_vars (request : Request) (rows : Option (List Invitation)) :
    ∃ ended, (onCheck request (clock 0) rows vars).1 = { vars with ended } := by
  unfold onCheck
  repeat' split
  all_goals first
    | exact answer_ended vars request _
    | exact ⟨vars.ended, rfl⟩

theorem invitation_vars (request : Request)
    (rows : Option (List Invitation)) :
    ∃ ended, (onInvitation request clock rows vars).1 = { vars with ended } := by
  unfold onInvitation
  split
  · dsimp only
    repeat' split
    all_goals first
      | exact answer_ended vars request _
      | exact processed_ended vars request true
      | exact ⟨vars.ended, rfl⟩
  · exact answer_ended vars request _

theorem pending_vars (request : Request) (address : String)
    (rows : Option (List Invitation)) :
    ∃ ended, (onPending request address clock rows vars).1 =
      { vars with ended } := by
  unfold onPending
  split
  · exact answer_ended vars request _
  · exact answer_ended vars request _

theorem reply_vars (outcome : Outcome) (operation : Operation) (vars : Vars) :
    ∃ ended, (reply outcome operation vars).1 =
      { vars with
        table := operation.newTable outcome vars.table
        direct := operation.newDirect outcome vars.direct
        rooms := vars.rooms ++ operation.newRooms outcome
        marks := vars.marks ++ operation.newMarks outcome
        ended } := by
  cases operation with
  | checkInvitation request =>
      obtain ⟨ended, hended⟩ := @query_vars vars outcome.clock request
        (select outcome [("id", .str request.id)] vars)
      exact ⟨ended, by simpa [reply, Operation.newTable, Operation.newDirect,
        Operation.newRooms, Operation.newMarks] using hended⟩
  | getInvitationById request =>
      obtain ⟨ended, hended⟩ := @invitation_vars vars outcome.clock request
        (select outcome [("id", .str request.id)] vars)
      exact ⟨ended, by simpa [reply, Operation.newTable, Operation.newDirect,
        Operation.newRooms, Operation.newMarks] using hended⟩
  | listPending request address =>
      obtain ⟨ended, hended⟩ := @pending_vars vars outcome.clock request address
        (select outcome [("recipient", .str address)] vars)
      exact ⟨ended, by simpa [reply, Operation.newTable, Operation.newDirect,
        Operation.newRooms, Operation.newMarks] using hended⟩
  | createPrivateChat request invitation awaited =>
      obtain ⟨ended, hended⟩ := processed_ended
        { vars with rooms := vars.rooms ++ (Operation.createPrivateChat request
          invitation awaited).newRooms outcome } request awaited
      by_cases hfails : outcome.fails = true
      · refine ⟨ended, ?_⟩
        by_cases heffective : outcome.effective = true
        · simpa [reply, onRoom, hfails, heffective, Operation.newTable,
            Operation.newDirect, Operation.newRooms, Operation.newMarks]
            using hended
        · simpa [reply, onRoom, hfails, heffective, Operation.newTable,
            Operation.newDirect, Operation.newRooms, Operation.newMarks]
            using hended
      · refine ⟨vars.ended, ?_⟩
        simp [reply, onRoom, hfails, Outcome.effective, Operation.newTable,
          Operation.newDirect, Operation.newRooms, Operation.newMarks]
  | markAsDirectMessage request invitation awaited room =>
      obtain ⟨ended, hended⟩ := processed_ended
        { vars with direct := (Operation.markAsDirectMessage request
          invitation awaited room).newDirect outcome vars.direct }
        request awaited
      by_cases hfails : outcome.fails = true
      · refine ⟨ended, ?_⟩
        by_cases heffective : outcome.effective = true
        · simpa [reply, onDirect, hfails, heffective, Operation.newTable,
            Operation.newDirect, Operation.newRooms, Operation.newMarks]
            using hended
        · simpa [reply, onDirect, hfails, heffective, Operation.newTable,
            Operation.newDirect, Operation.newRooms, Operation.newMarks]
            using hended
      · refine ⟨vars.ended, ?_⟩
        simp [reply, onDirect, hfails, Outcome.effective, Operation.newTable,
          Operation.newDirect, Operation.newRooms, Operation.newMarks]
  | update request invitation awaited =>
      obtain ⟨ended, hended⟩ := processed_ended
        { vars with
          table := (Operation.update request invitation awaited).newTable
            outcome vars.table
          marks := vars.marks ++ (Operation.update request invitation
            awaited).newMarks outcome } request awaited
      refine ⟨ended, ?_⟩
      by_cases heffective : outcome.effective = true
      · simpa [reply, onUpdate, heffective, Operation.newTable,
          Operation.newDirect, Operation.newRooms, Operation.newMarks]
          using hended
      · simpa [reply, onUpdate, heffective, Operation.newTable,
          Operation.newDirect, Operation.newRooms, Operation.newMarks]
          using hended

theorem react_vars (outcome : Outcome) (operation : Operation) (vars : Vars) :
    ∃ ended, (react outcome operation vars).1 =
      { vars with
        table := operation.newTable outcome vars.table
        direct := operation.newDirect outcome vars.direct
        rooms := vars.rooms ++ operation.newRooms outcome
        marks := vars.marks ++ operation.newMarks outcome
        failed := vars.failed ++ if outcome.fails then [operation] else []
        ended } := by
  obtain ⟨ended, hreply⟩ := reply_vars outcome operation vars
  exact ⟨ended, by rw [react, hreply]⟩

@[simp] theorem react_table (outcome : Outcome) (operation : Operation)
    (vars : Vars) : (react outcome operation vars).1.table =
      operation.newTable outcome vars.table := by
  obtain ⟨_, hvars⟩ := react_vars outcome operation vars
  rw [hvars]

@[simp] theorem react_direct (outcome : Outcome) (operation : Operation)
    (vars : Vars) : (react outcome operation vars).1.direct =
      operation.newDirect outcome vars.direct := by
  obtain ⟨_, hvars⟩ := react_vars outcome operation vars
  rw [hvars]

@[simp] theorem react_started (outcome : Outcome) (operation : Operation)
    (vars : Vars) :
    (react outcome operation vars).1.started = vars.started := by
  obtain ⟨_, hvars⟩ := react_vars outcome operation vars
  rw [hvars]

@[simp] theorem react_rooms (outcome : Outcome) (operation : Operation)
    (vars : Vars) : (react outcome operation vars).1.rooms =
      vars.rooms ++ operation.newRooms outcome := by
  obtain ⟨_, hvars⟩ := react_vars outcome operation vars
  rw [hvars]

@[simp] theorem react_marks (outcome : Outcome) (operation : Operation)
    (vars : Vars) : (react outcome operation vars).1.marks =
      vars.marks ++ operation.newMarks outcome := by
  obtain ⟨_, hvars⟩ := react_vars outcome operation vars
  rw [hvars]

@[simp] theorem react_failed (outcome : Outcome) (operation : Operation)
    (vars : Vars) : (react outcome operation vars).1.failed =
      vars.failed ++ if outcome.fails then [operation] else [] := by
  obtain ⟨_, hvars⟩ := react_vars outcome operation vars
  rw [hvars]

theorem react_ended (outcome : Outcome) (operation : Operation) (vars : Vars) :
    (react outcome operation vars).1.ended =
      (reply outcome operation vars).1.ended := rfl

theorem react_issued (outcome : Outcome) (operation : Operation)
    (vars : Vars) : (react outcome operation vars).2 =
      (reply outcome operation vars).2 := rfl

/-! The table. -/

theorem mem_select {filter : IdentityServer.Filter} {rows : List Invitation}
    (h : select outcome filter vars = some rows) :
    ∀ row ∈ rows, row ∈ vars.table := by
  unfold select at h
  split at h
  · cases h
  · obtain ⟨statement, _, rfl⟩ := Option.map_eq_some_iff.mp h
    exact fun row hrow => (List.mem_filter.mp hrow).1

theorem select_sublist {filter : IdentityServer.Filter}
    {rows : List Invitation} (h : select outcome filter vars = some rows) :
    rows.Sublist vars.table := by
  unfold select at h
  split at h
  · cases h
  · obtain ⟨statement, _, rfl⟩ := Option.map_eq_some_iff.mp h
    exact List.filter_sublist

theorem mem_pendingToAddress {address : String} {rows : List Invitation} :
    invitation ∈ pendingToAddress address rows ↔
      ∃ row ∈ rows, row.isAccessed = false ∧ row.recipient = some address ∧
        invitation = row.response := by
  simp only [pendingToAddress, List.mem_map, List.mem_filter, Bool.and_eq_true,
    Bool.not_eq_true', beq_iff_eq]
  constructor
  · rintro ⟨row, ⟨hrow, hpending, hrecipient⟩, rfl⟩
    exact ⟨row, hrow, hpending, hrecipient, rfl⟩
  · rintro ⟨row, hrow, hpending, hrecipient, rfl⟩
    exact ⟨row, ⟨hrow, hpending, hrecipient⟩, rfl⟩

theorem map_updateInvitation (userId id : String) (table : List Invitation) :
    (updateInvitation userId id table).map Invitation.id =
      table.map Invitation.id := by
  unfold updateInvitation
  rw [List.map_map]
  refine List.map_congr_left fun row _ => ?_
  dsimp only [Function.comp_apply]
  split
  · rfl
  · rfl

theorem mem_updateInvitation {userId id : String} {table : List Invitation}
    {row : Invitation} :
    row ∈ updateInvitation userId id table ↔
      row ∈ table ∧ row.id ≠ id ∨ ∃ old ∈ table, old.id = id ∧
        row = { old with accessed := some 1, matrixId := some userId } := by
  simp only [updateInvitation, List.mem_map, Invitation.cell, Cell.same_text]
  constructor
  · rintro ⟨old, hold, rfl⟩
    split
    · rename_i hid
      exact .inr ⟨old, hold, hid, rfl⟩
    · rename_i hid
      exact .inl ⟨hold, hid⟩
  · rintro (⟨hrow, hid⟩ | ⟨old, hold, hid, rfl⟩)
    · exact ⟨row, hrow, by rw [if_neg hid]⟩
    · exact ⟨old, hold, by rw [if_pos hid]⟩

theorem accessed_newTable (outcome : Outcome) (operation : Operation)
    {table : List Invitation} {id : String}
    (marked : ∀ row ∈ table, row.id = id → row.isAccessed = true) :
    ∀ row ∈ operation.newTable outcome table, row.id = id →
      row.isAccessed = true := by
  intro row hrow hid
  cases operation with
  | update request invitation awaited =>
      simp only [Operation.newTable] at hrow
      split at hrow
      · rcases mem_updateInvitation.mp hrow with ⟨hold, _⟩ |
          ⟨old, _, _, rfl⟩
        · exact marked row hold hid
        · rfl
      · exact marked row hrow hid
  | _ => exact marked row hrow hid

theorem ids_newTable (outcome : Outcome) (operation : Operation)
    (table : List Invitation) :
    (operation.newTable outcome table).map Invitation.id =
      table.map Invitation.id := by
  cases operation with
  | update request invitation awaited =>
      simp only [Operation.newTable]
      split
      · exact map_updateInvitation _ _ _
      · rfl
  | _ => rfl

theorem getInvitations_str (key value : String) (table : List Invitation) :
    ∃ rows, getInvitations [(key, .str value)] table = some rows := by
  rcases IdentityServer.getStatement_spec ["*"] [(key, .str value)] with
    ⟨hnone, _⟩ | ⟨_, statement, _, hstatement, _⟩
  · rw [IdentityServer.resolve_cons_str] at hnone
    split at hnone
    · cases hnone
    · cases hnone
  · exact ⟨_, by rw [getInvitations, hstatement]; rfl⟩

theorem select_healthy {filter : IdentityServer.Filter}
    (healthy : outcome.fails = false) :
    select outcome filter vars = getInvitations filter vars.table := by
  rw [select, healthy]
  rfl

theorem select_failed {filter : IdentityServer.Filter}
    (fails : outcome.fails = true) : select outcome filter vars = none := by
  rw [select, fails]
  rfl

/-- The row that is read first is in the table. -/
theorem mem_of_firstRow {id : String} {table : List Invitation}
    {row : Invitation} (h : firstRow id table = some row) : row ∈ table := by
  obtain ⟨rows, hrows, hhead⟩ := Option.bind_eq_some_iff.mp h
  obtain ⟨statement, _, rfl⟩ := Option.map_eq_some_iff.mp hrows
  exact (List.mem_filter.mp (List.mem_of_mem_head? hhead)).1

theorem id_of_firstRow {id : String} {table : List Invitation}
    {row : Invitation} (named : id ≠ "") (h : firstRow id table = some row) :
    row.id = id := by
  obtain ⟨rows, hrows, hhead⟩ := Option.bind_eq_some_iff.mp h
  obtain ⟨statement, hstatement, rfl⟩ := Option.map_eq_some_iff.mp hrows
  have hselected := (List.mem_filter.mp (List.mem_of_mem_head? hhead)).2
  rcases IdentityServer.getStatement_spec ["*"] [("id", .str id)] with
    ⟨_, hnone⟩ | ⟨resolved, other, hresolve, hother, hselects⟩
  · rw [hnone] at hstatement
    cases hstatement
  · rw [hstatement] at hother
    cases hother
    rw [IdentityServer.resolve_cons_str, if_neg named] at hresolve
    cases hresolve
    rw [hselects] at hselected
    simpa [IdentityServer.selectsAll, Invitation.cell] using hselected

theorem follows_cases {plan : Plan} {before after : AcceptLoop}
    {event : Event} (follows : Follows plan before event)
    (stepped : step before event = some after) :
    ∃ operation rest,
      Loop.Completes react before (plan operation) operation rest after := by
  cases event with
  | request id userId authorization => exact follows.elim
  | accept id userId authorization => exact follows.elim
  | complete index outcome =>
      have hcompleted : before.complete react index outcome = some after :=
        stepped
      obtain ⟨operation, hoperation, completes⟩ :=
        Loop.complete_cases hcompleted
      rw [follows operation hoperation] at completes
      exact ⟨operation, _, completes⟩

end Replies

/-! One call alone. -/

section OneCall

variable {plan : Plan} {request : Request} {table : List Invitation}
variable {row other : Invitation} {vars : Vars}

/-- The call finds its invitation, which has neither expired nor been used. -/
structure Finds (plan : Plan) (request : Request) (table : List Invitation)
    (row : Invitation) : Prop where
  answers : (plan (.getInvitationById request)).fails = false
  first : firstRow request.id table = some row
  valid : (plan (.getInvitationById request)).clock 0 ≤ row.expiration
  unused : row.isAccessed = false

theorem select_first (answers :
    (plan (.getInvitationById request)).fails = false) :
    ∃ rows, select (plan (.getInvitationById request))
        [("id", .str request.id)] vars = some rows ∧
      firstRow request.id vars.table = rows.head? := by
  obtain ⟨rows, hrows⟩ := getInvitations_str "id" request.id vars.table
  exact ⟨rows, by rw [select_healthy answers, hrows],
    by rw [firstRow, hrows]; rfl⟩

theorem Finds.same (finds : Finds plan request table row)
    (first : firstRow request.id table = some other) : row = other :=
  Option.some.inj (finds.first.symm.trans first)

def listOperation (request : Request) (row : Invitation) : Operation :=
  .listPending request (row.recipient.getD "")

def roomOperation (request : Request) (row : Invitation) : Operation :=
  .createPrivateChat request row.response true

def directOperation (plan : Plan) (request : Request) (row : Invitation) :
    Operation :=
  .markAsDirectMessage request row.response true
    (plan (roomOperation request row)).room

def updateOperation (request : Request) (row : Invitation) : Operation :=
  .update request row.response true

/-- The first query finds no invitation that can be accepted, or sets one
going. -/
theorem reply_first (same : vars.table = table) :
    (∀ row, ¬ Finds plan request table row) ∧
      reply (plan (.getInvitationById request)) (.getInvitationById request)
        vars = (vars.reject request, []) ∨
    ∃ row, Finds plan request table row ∧
      reply (plan (.getInvitationById request)) (.getInvitationById request)
          vars =
        if truthy row.recipient then (vars, [listOperation request row])
        else if row.expiration <
            (plan (.getInvitationById request)).clock 1 then
          (vars.answer request .resolved, [])
        else (vars, [roomOperation request row]) := by
  by_cases hfails : (plan (.getInvitationById request)).fails = true
  · refine .inl ⟨fun row finds => ?_, ?_⟩
    · rw [finds.answers] at hfails
      cases hfails
    · rw [reply, select_failed hfails]
      rfl
  · have hanswers := Bool.eq_false_iff.mpr hfails
    obtain ⟨rows, hselect, hfirst⟩ := @select_first plan request vars hanswers
    rw [same] at hfirst
    cases rows with
    | nil =>
        refine .inl ⟨fun row finds => ?_, by rw [reply, hselect]; rfl⟩
        have hnone := finds.first
        rw [hfirst] at hnone
        cases hnone
    | cons row others =>
        have hrow : firstRow request.id table = some row := hfirst
        have hreply : reply (plan (.getInvitationById request))
            (.getInvitationById request) vars =
            onInvitation request (plan (.getInvitationById request)).clock
              (some (row :: others)) vars := by
          rw [reply, hselect]
        rw [hreply]
        by_cases hexpired : row.expiration <
            (plan (.getInvitationById request)).clock 0
        · refine .inl ⟨fun other finds => ?_, by simp [onInvitation, hexpired]⟩
          have hvalid := finds.valid
          rw [finds.same hrow] at hvalid
          omega
        · by_cases hused : row.isAccessed = true
          · refine .inl ⟨fun other finds => ?_,
              by simp [onInvitation, hexpired, hused]⟩
            have hunused := finds.unused
            rw [finds.same hrow, hused] at hunused
            cases hunused
          · refine .inr ⟨row, ⟨hanswers, hrow, Nat.not_lt.mp hexpired,
              Bool.eq_false_iff.mpr hused⟩, ?_⟩
            by_cases haddressed : truthy row.recipient = true
            · simp [onInvitation, hexpired, hused, haddressed, listOperation]
            · by_cases hlate : row.expiration <
                  (plan (.getInvitationById request)).clock 1
              · simp [onInvitation, hexpired, hused, haddressed, hlate,
                  processInvitation, Vars.processed]
              · simp [onInvitation, hexpired, hused, haddressed, hlate,
                  processInvitation, roomOperation]

end OneCall

end TwakeKickstart.TomServer.Invitations
