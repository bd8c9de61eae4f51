import TwakeKickstart.Library.Least
import TwakeKickstart.TomServer.Invitations.RateLimit

namespace TwakeKickstart.TomServer.Invitations

open Library
open IdentityServer (Filter getStatement getStatement_spec selectsAll)

/-! `InvitationService.generateLink`, and what else writes the table of the
invitations between its calls. -/

/-- A condition is put only for a value that is truthy. -/
def condition (column : String) : Option String → Filter
  | none => []
  | some text => if text = "" then [] else [(column, .str text)]

/-- The filter of `_getPendingUserInvitesToAddress`. -/
def invitesFilter (payload : InvitationPayload) : Filter :=
  ("sender", .str payload.sender) ::
    (condition "recipient" payload.recipient ++
      condition "medium" payload.medium)

/-- `_getPendingUserInvitesToAddress`: `none` also after an error. -/
def pendingUserInvites (payload : InvitationPayload)
    (table : List Invitation) : Option (List Invitation) :=
  match getInvitations (invitesFilter payload) table with
  | none => none
  | some [] => none
  | some userInvitations =>
      some (userInvitations.filter fun row =>
        !row.isAccessed && row.recipient == payload.recipient &&
          row.medium == payload.medium)

/-- The filter on `expiration`; the clock is read for each row. -/
def unexpired (clock : Nat → Nat) : List Invitation → List Invitation
  | [] => []
  | row :: rest =>
      if clock 0 < row.expiration then
        row :: unexpired (fun reading => clock (reading + 1)) rest
      else unexpired (fun reading => clock (reading + 1)) rest

/-- The comparator of the sort. -/
def laterFirst (row other : Invitation) : Bool :=
  decide (other.expiration ≤ row.expiration)

/-- `_getPreviouslyGeneratedInviteToAddress`, and how often it has read the
clock. -/
def previouslyGenerated (clock : Nat → Nat) (payload : InvitationPayload)
    (table : List Invitation) : Option Invitation × Nat :=
  match pendingUserInvites payload table with
  | none => (none, 0)
  | some pendingInvitations =>
      (((unexpired clock pendingInvitations).mergeSort laterFirst).head?,
        pendingInvitations.length)

/-- `db.insert`: the ID is the primary key. -/
def insertInvitation (row : Invitation) (table : List Invitation) :
    Option (List Invitation) :=
  if (table.map Invitation.id).contains row.id then none
  else some (table ++ [row])

/-- `db.deleteEqual` of the row that has the ID. -/
def removeInvitation (id : String) (table : List Invitation) :
    List Invitation :=
  table.filter fun row => !(row.cell "id").same (.text id)

/-- The table, and how often the clock has been read so far. -/
structure Links where
  table : List Invitation
  readings : Nat

structure GenerateInvitationLinkResponse where
  link : String
  id : String
  deriving DecidableEq

variable (invitationUrl : String → String) (clock : Nat → Nat)

/-- `_createInvitation`; `token` is the UUID that is drawn. -/
def Links.create (payload : InvitationPayload) (token : String)
    (links : Links) : Links × Option String :=
  match insertInvitation
      (createInvitation (clock links.readings) token payload) links.table with
  | none => ({ links with readings := links.readings + 1 }, none)
  | some table => (⟨table, links.readings + 1⟩, some token)

/-- `generateLink`. -/
def generateLink (payload : InvitationPayload) (token : String)
    (links : Links) : Links × Except String GenerateInvitationLinkResponse :=
  match previouslyGenerated (fun reading => clock (links.readings + reading))
      payload links.table with
  | (some invite, looked) =>
      ({ links with readings := links.readings + looked },
        .ok ⟨invitationUrl invite.id, invite.id⟩)
  | (none, looked) =>
      match ({ links with readings := links.readings + looked } : Links).create
          clock payload token with
      | (links, none) => (links, .error "Failed to generate invitation link")
      | (links, some id) => (links, .ok ⟨invitationUrl id, id⟩)

/-- The controller; `contact` and `medium` are `null` when the body has
none. -/
def generateInvitationLink (sender contact medium : Option String)
    (token : String) (links : Links) :
    Links × Except String GenerateInvitationLinkResponse :=
  match sender with
  | none => (links, .error "Sender is required")
  | some sender =>
      if sender = "" then (links, .error "Sender is required")
      else
        generateLink invitationUrl clock ⟨sender, contact, medium⟩ token links

/-- What writes the table: links, invitations that are sent, whether or not
they can be delivered, the end of an acceptance, and removals. -/
inductive Activity where
  | generate (sender contact medium : Option String) (token : String)
  | invite (payload : InvitationPayload) (token : String) (delivered : Bool)
  | accept (id userId : String)
  | remove (id : String)

def Links.invite (payload : InvitationPayload) (token : String)
    (delivered : Bool) (links : Links) : Links :=
  match links.create clock payload token with
  | (links, none) => links
  | (links, some id) =>
      if delivered then links
      else { links with table := removeInvitation id links.table }

def Activity.step (links : Links) : Activity → Links
  | .generate sender contact medium token =>
      (generateInvitationLink invitationUrl clock sender contact medium token
        links).1
  | .invite payload token delivered =>
      links.invite clock payload token delivered
  | .accept id userId =>
      { links with table := updateInvitation userId id links.table }
  | .remove id => { links with table := removeInvitation id links.table }

def Links.run (links : Links) (activities : List Activity) : Links :=
  activities.foldl (Activity.step invitationUrl clock) links

/-! What a call has to answer. -/

/-- The invitations of the sender to the recipient by the medium that are not
accessed. -/
def openRows (payload : InvitationPayload) (table : List Invitation) :
    List Invitation :=
  table.filter fun row =>
    row.sender == payload.sender && row.recipient == payload.recipient &&
      row.medium == payload.medium && !row.isAccessed

/-- The open rows, each with the time at which the call looks at it. -/
def Links.looks (payload : InvitationPayload) (links : Links) :
    List (Invitation × Nat) :=
  (openRows payload links.table).zipIdx.map fun look =>
    (look.1, clock (links.readings + look.2))

/-- The row that is inserted once the open ones have been looked at. -/
def Links.made (payload : InvitationPayload) (token : String)
    (links : Links) : Invitation :=
  createInvitation
    (clock (links.readings + (openRows payload links.table).length)) token
    payload

inductive Answers (payload : InvitationPayload) (token : String)
    (before after : Links) :
    Except String GenerateInvitationLinkResponse → Prop where
  | reused {row : Invitation} {time : Nat}
      (looked : (row, time) ∈ before.looks clock payload)
      (valid : time < row.expiration)
      (greatest : ∀ look ∈ before.looks clock payload,
        look.2 < look.1.expiration → look.1.expiration ≤ row.expiration)
      (same : after.table = before.table) :
      Answers payload token before after (.ok ⟨invitationUrl row.id, row.id⟩)
  | created
      (none : ∀ look ∈ before.looks clock payload,
        look.1.expiration ≤ look.2)
      (inserted : after.table =
        before.table ++ [before.made clock payload token])
      (opened : openRows payload after.table =
        openRows payload before.table ++ [before.made clock payload token]) :
      Answers payload token before after (.ok ⟨invitationUrl token, token⟩)

theorem laterFirst_trans (a b c : Invitation) (hab : laterFirst a b = true)
    (hbc : laterFirst b c = true) : laterFirst a c = true := by
  simp only [laterFirst, decide_eq_true_eq] at *
  omega

theorem laterFirst_total (a b : Invitation) :
    (laterFirst a b || laterFirst b a) = true := by
  simp only [laterFirst, Bool.or_eq_true, decide_eq_true_eq]
  omega

theorem laterFirst_eq_false {row other : Invitation} :
    laterFirst row other = false ↔ row.expiration < other.expiration := by
  simp [laterFirst]

theorem resolve_condition (column : String) (value : Option String)
    (rest : Filter) :
    (condition column value ++ rest).resolve = rest.resolve.map
      ((value.toList.filter (· != "")).map (fun text => (column, [text])) ++ ·)
      := by
  cases value with
  | none => simp [condition]
  | some text =>
      by_cases hempty : text = ""
      · simp [condition, hempty]
      · simp [condition, hempty]

theorem selectsAll_condition (column : String) (value : Option String)
    {row : Invitation} (h : row.cell column = value.elim .null .text) :
    selectsAll .eq ((value.toList.filter (· != "")).map
      fun text => (column, [text])) row.cell = true := by
  simp only [selectsAll, List.all_eq_true, List.mem_map]
  rintro _ ⟨text, htext, rfl⟩
  obtain ⟨hmem, _⟩ := List.mem_filter.mp htext
  rw [Option.mem_toList] at hmem
  simp [h, hmem]

theorem getInvitations_filter {payload : InvitationPayload}
    (named : payload.sender ≠ "") (table : List Invitation) :
    ∃ rows, getInvitations (invitesFilter payload) table = some rows ∧
      rows.filter (fun row =>
        !row.isAccessed && row.recipient == payload.recipient &&
          row.medium == payload.medium) = openRows payload table := by
  have hresolve : (invitesFilter payload).resolve = some
      (("sender", [payload.sender]) ::
        ((payload.recipient.toList.filter (· != "")).map
            (fun text => ("recipient", [text])) ++
          (payload.medium.toList.filter (· != "")).map
            fun text => ("medium", [text]))) := by
    rw [invitesFilter, IdentityServer.resolve_cons_str, if_neg named,
      resolve_condition, ← List.append_nil (condition "medium" payload.medium),
      resolve_condition]
    simp
  rcases getStatement_spec ["*"] (invitesFilter payload) with
    ⟨hnone, _⟩ | ⟨resolved, statement, hresolved, hstatement, hselects⟩
  · rw [hresolve] at hnone
    cases hnone
  · rw [hresolve] at hresolved
    cases hresolved
    refine ⟨_, by rw [getInvitations, hstatement, Option.map_some], ?_⟩
    rw [List.filter_filter]
    refine List.filter_congr fun row _ => ?_
    rw [hselects, Bool.eq_iff_iff]
    simp only [selectsAll, List.all_cons, List.all_append, Bool.and_eq_true,
      Bool.not_eq_true', beq_iff_eq]
    constructor
    · rintro ⟨⟨⟨haccessed, hrecipient⟩, hmedium⟩, hsender, _⟩
      refine ⟨⟨⟨?_, hrecipient⟩, hmedium⟩, haccessed⟩
      simpa [Invitation.cell] using hsender
    · rintro ⟨⟨⟨hsender, hrecipient⟩, hmedium⟩, haccessed⟩
      refine ⟨⟨⟨haccessed, hrecipient⟩, hmedium⟩, ?_, ?_, ?_⟩
      · simp [Invitation.cell, hsender]
      · exact selectsAll_condition "recipient" payload.recipient
          (by rw [← hrecipient]; rfl)
      · exact selectsAll_condition "medium" payload.medium
          (by rw [← hmedium]; rfl)

/-- What was generated before is the greatest of the open rows that are still
valid when they are looked at. -/
theorem previouslyGenerated_eq (clock : Nat → Nat)
    {payload : InvitationPayload} (named : payload.sender ≠ "")
    (table : List Invitation) :
    previouslyGenerated clock payload table =
      (least laterFirst (unexpired clock (openRows payload table)),
        (openRows payload table).length) := by
  obtain ⟨rows, hrows, hopen⟩ := getInvitations_filter named table
  rw [previouslyGenerated, pendingUserInvites, hrows, ← hopen]
  cases rows with
  | nil => rfl
  | cons first rest =>
      dsimp only
      rw [head?_mergeSort laterFirst_trans laterFirst_total]

theorem unexpired_sublist (clock : Nat → Nat) (rows : List Invitation) :
    (unexpired clock rows).Sublist rows := by
  induction rows generalizing clock with
  | nil => exact .refl _
  | cons row rest ih =>
      unfold unexpired
      split
      · exact (ih _).cons_cons row
      · exact (ih _).cons row

theorem mem_unexpired_or {clock : Nat → Nat} {rows : List Invitation}
    {row : Invitation} (h : row ∈ rows) :
    row ∈ unexpired clock rows ∨
      ∃ reading < rows.length, row.expiration ≤ clock reading := by
  induction rows generalizing clock with
  | nil => cases h
  | cons first rest ih =>
      unfold unexpired
      rcases List.mem_cons.mp h with rfl | hrest
      · split
        · exact .inl List.mem_cons_self
        · rename_i hexpired
          exact .inr ⟨0, Nat.zero_lt_succ _, Nat.le_of_not_lt hexpired⟩
      · rcases @ih (fun reading => clock (reading + 1)) hrest with
          hmem | ⟨reading, hreading, hexpired⟩
        · split
          · exact .inl (List.mem_cons_of_mem _ hmem)
          · exact .inl hmem
        · exact .inr ⟨reading + 1, Nat.succ_lt_succ hreading, hexpired⟩

theorem mem_unexpired {clock : Nat → Nat} {rows : List Invitation}
    {row : Invitation} :
    row ∈ unexpired clock rows ↔
      ∃ reading, rows[reading]? = some row ∧
        clock reading < row.expiration := by
  induction rows generalizing clock with
  | nil => simp [unexpired]
  | cons first rest ih =>
      have hrest : row ∈ unexpired (fun reading => clock (reading + 1)) rest ↔
          ∃ reading, (first :: rest)[reading + 1]? = some row ∧
            clock (reading + 1) < row.expiration := by
        simpa only [List.getElem?_cons_succ] using
          @ih fun reading => clock (reading + 1)
      rw [← Nat.or_exists_add_one, ← hrest, unexpired,
        List.getElem?_cons_zero, Option.some.injEq]
      split
      · rename_i hvalid
        rw [List.mem_cons, eq_comm]
        constructor
        · rintro (rfl | hmem)
          · exact .inl ⟨rfl, hvalid⟩
          · exact .inr hmem
        · exact Or.imp_left And.left
      · rename_i hexpired
        constructor
        · exact .inr
        · rintro (⟨rfl, hvalid⟩ | hmem)
          · exact absurd hvalid hexpired
          · exact hmem

theorem mem_looks {clock : Nat → Nat} {payload : InvitationPayload}
    {links : Links} {look : Invitation × Nat} :
    look ∈ links.looks clock payload ↔
      ∃ reading, (openRows payload links.table)[reading]? = some look.1 ∧
        look.2 = clock (links.readings + reading) := by
  rw [Links.looks, List.mem_map]
  constructor
  · rintro ⟨⟨row, reading⟩, hmem, rfl⟩
    exact ⟨reading, List.mem_zipIdx_iff_getElem?.mp hmem, rfl⟩
  · rintro ⟨reading, hrow, htime⟩
    refine ⟨(look.1, reading), List.mem_zipIdx_iff_getElem?.mpr hrow, ?_⟩
    rw [← htime]

theorem mem_unexpired_iff {clock : Nat → Nat} {payload : InvitationPayload}
    {links : Links} {row : Invitation} :
    row ∈ unexpired (fun reading => clock (links.readings + reading))
        (openRows payload links.table) ↔
      ∃ look ∈ links.looks clock payload,
        look.1 = row ∧ look.2 < row.expiration := by
  rw [mem_unexpired]
  constructor
  · rintro ⟨reading, hrow, hvalid⟩
    exact ⟨(row, _), mem_looks.mpr ⟨reading, hrow, rfl⟩, rfl, hvalid⟩
  · rintro ⟨look, hlook, rfl, hvalid⟩
    obtain ⟨reading, hrow, htime⟩ := mem_looks.mp hlook
    exact ⟨reading, hrow, htime ▸ hvalid⟩

/-! What is inserted. -/

theorem insertInvitation_cases (row : Invitation) (table : List Invitation) :
    insertInvitation row table = none ∧ row.id ∈ table.map Invitation.id ∨
    insertInvitation row table = some (table ++ [row]) ∧
      row.id ∉ table.map Invitation.id := by
  unfold insertInvitation
  split
  · rename_i htaken
    exact .inl ⟨rfl, List.contains_iff_mem.mp htaken⟩
  · rename_i hfree
    exact .inr ⟨rfl, fun hmem => hfree (List.contains_iff_mem.mpr hmem)⟩

theorem openRows_append (payload : InvitationPayload)
    (table : List Invitation) (row : Invitation) :
    openRows payload (table ++ [row]) =
      openRows payload table ++ openRows payload [row] :=
  List.filter_append ..

theorem openRows_created (payload : InvitationPayload) (now : Nat)
    (token : String) :
    openRows payload [createInvitation now token payload] =
      [createInvitation now token payload] := by
  simp [openRows, createInvitation, Invitation.isAccessed]

theorem openRows_other {payload other : InvitationPayload}
    (h : other ≠ payload) (now : Nat) (token : String) :
    openRows payload [createInvitation now token other] = [] := by
  rw [openRows, List.filter_eq_nil_iff]
  intro row hrow hopen
  rw [List.mem_singleton.mp hrow] at hopen
  simp only [createInvitation, Bool.and_eq_true, beq_iff_eq] at hopen
  obtain ⟨⟨⟨hsender, hrecipient⟩, hmedium⟩, _⟩ := hopen
  cases other
  cases payload
  simp_all

theorem create_cases (clock : Nat → Nat) (payload : InvitationPayload)
    (token : String) (links : Links) :
    (token ∈ links.table.map Invitation.id ∧
      links.create clock payload token =
        (⟨links.table, links.readings + 1⟩, none)) ∨
    (token ∉ links.table.map Invitation.id ∧
      links.create clock payload token =
        (⟨links.table ++
            [createInvitation (clock links.readings) token payload],
          links.readings + 1⟩, some token)) := by
  rcases insertInvitation_cases
      (createInvitation (clock links.readings) token payload) links.table with
    ⟨hinsert, hid⟩ | ⟨hinsert, hid⟩
  · exact .inl ⟨hid, by rw [Links.create, hinsert]⟩
  · exact .inr ⟨hid, by rw [Links.create, hinsert]⟩

section Calls

variable {invitationUrl : String → String} {clock : Nat → Nat}
variable {payload : InvitationPayload} {token : String} {links : Links}

theorem generateLink_some {row : Invitation} (named : payload.sender ≠ "")
    (h : least laterFirst (unexpired (fun reading =>
      clock (links.readings + reading)) (openRows payload links.table)) =
        some row) :
    generateLink invitationUrl clock payload token links =
      (⟨links.table, links.readings + (openRows payload links.table).length⟩,
        .ok ⟨invitationUrl row.id, row.id⟩) := by
  rw [generateLink, previouslyGenerated_eq _ named, h]

theorem generateLink_none (named : payload.sender ≠ "")
    (h : unexpired (fun reading => clock (links.readings + reading))
      (openRows payload links.table) = []) :
    generateLink invitationUrl clock payload token links =
      match ({ links with readings := links.readings +
          (openRows payload links.table).length } : Links).create clock
          payload token with
      | (links, none) => (links, .error "Failed to generate invitation link")
      | (links, some id) => (links, .ok ⟨invitationUrl id, id⟩) := by
  rw [generateLink, previouslyGenerated_eq _ named, h]
  rfl

theorem generateLink_cases (invitationUrl : String → String)
    (clock : Nat → Nat) (named : payload.sender ≠ "") (token : String)
    (links : Links) :
    (∃ row, least laterFirst (unexpired (fun reading =>
        clock (links.readings + reading)) (openRows payload links.table)) =
          some row ∧
      generateLink invitationUrl clock payload token links =
        (⟨links.table,
            links.readings + (openRows payload links.table).length⟩,
          .ok ⟨invitationUrl row.id, row.id⟩)) ∨
    (unexpired (fun reading => clock (links.readings + reading))
        (openRows payload links.table) = [] ∧
      ∃ readings,
        readings = links.readings + (openRows payload links.table).length + 1 ∧
        (token ∈ links.table.map Invitation.id ∧
          generateLink invitationUrl clock payload token links =
            (⟨links.table, readings⟩,
              .error "Failed to generate invitation link") ∨
        token ∉ links.table.map Invitation.id ∧
          generateLink invitationUrl clock payload token links =
            (⟨links.table ++ [links.made clock payload token], readings⟩,
              .ok ⟨invitationUrl token, token⟩))) := by
  cases hleast : least laterFirst (unexpired (fun reading =>
      clock (links.readings + reading)) (openRows payload links.table)) with
  | some row => exact .inl ⟨row, rfl, generateLink_some named hleast⟩
  | none =>
      have hnone := (least_eq_none laterFirst).mp hleast
      refine .inr ⟨hnone, _, rfl, ?_⟩
      rw [generateLink_none named hnone]
      rcases create_cases clock payload token { links with readings :=
          links.readings + (openRows payload links.table).length } with
        ⟨htaken, hcreate⟩ | ⟨hfree, hcreate⟩
      · exact .inl ⟨htaken, by rw [hcreate]⟩
      · exact .inr ⟨hfree, by rw [hcreate]; rfl⟩

/-- One call answers a link that is still valid, the one that lasts longest,
or else makes one. -/
theorem generateLink_answers (invitationUrl : String → String)
    (clock : Nat → Nat) (named : payload.sender ≠ "")
    (fresh : token ∉ links.table.map Invitation.id) :
    Answers invitationUrl clock payload token links
      (generateLink invitationUrl clock payload token links).1
      (generateLink invitationUrl clock payload token links).2 := by
  rcases generateLink_cases invitationUrl clock named token links with
    ⟨row, hleast, hcall⟩ | ⟨hnone, readings, _, ⟨htaken, _⟩ |
      ⟨_, hcall⟩⟩
  · rw [hcall]
    obtain ⟨look, hlook, rfl, hvalid⟩ :=
      mem_unexpired_iff.mp (least_mem laterFirst hleast)
    refine .reused hlook hvalid ?_ rfl
    intro other hother hunexpired
    have hle := least_le laterFirst_trans laterFirst_total hleast other.1
      (mem_unexpired_iff.mpr ⟨other, hother, rfl, hunexpired⟩)
    exact of_decide_eq_true hle
  · exact absurd htaken fresh
  · rw [hcall]
    refine .created ?_ rfl ?_
    · intro look hlook
      by_contra hvalid
      have hmem := mem_unexpired_iff.mpr
        ⟨look, hlook, rfl, Nat.lt_of_not_le hvalid⟩
      rw [hnone] at hmem
      cases hmem
    · rw [openRows_append, Links.made, openRows_created]

theorem readings_le_generateLink (named : payload.sender ≠ "") :
    links.readings ≤
      (generateLink invitationUrl clock payload token links).1.readings := by
  rcases generateLink_cases invitationUrl clock named token links with
    ⟨row, _, hcall⟩ | ⟨_, readings, hreadings, ⟨_, hcall⟩ |
      ⟨_, hcall⟩⟩
  · rw [hcall]
    exact Nat.le_add_right _ _
  · rw [hcall]
    dsimp only
    omega
  · rw [hcall]
    dsimp only
    omega

end Calls

end TwakeKickstart.TomServer.Invitations
