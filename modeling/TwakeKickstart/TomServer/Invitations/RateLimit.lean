import TwakeKickstart.TomServer.Invitations.Service

namespace TwakeKickstart.TomServer.Invitations

open Library
open IdentityServer (Filter getStatement getStatement_spec)

/-! The middleware `rateLimitInvitations` reads back what `_createInvitation`
has stored. -/

/-- `EXPIRATION`: 24 hours, in milliseconds. -/
def expirationDelay : Nat := 24 * 60 * 60 * 1000

/-- `ONE_HOUR`. -/
def oneHour : Nat := 60 * 60 * 1000

structure InvitationPayload where
  sender : String
  recipient : Option String
  medium : Option String

/-- The row that `_createInvitation` inserts; `token` is the UUID it draws. -/
def createInvitation (now : Nat) (token : String)
    (payload : InvitationPayload) : Invitation where
  id := token
  sender := payload.sender
  recipient := payload.recipient
  medium := payload.medium
  expiration := now + expirationDelay
  accessed := some 0
  matrixId := none

inductive Passage where
  | next
  | refused (status : Nat) (message : String)
  deriving DecidableEq

-- `none` when the query is rejected.
def rateLimitInvitations (now : Nat) : Option (List Invitation) → Passage
  | none => .refused 400 "Failed to rate limit invitations"
  | some invitations =>
      match invitations.getLast? with
      | none => .next
      | some lastInvitation =>
          if (now : Int) - lastInvitation.expiration < oneHour then
            .refused 400 "You already sent an invitation to this contact"
          else .next

/-! What has been stored, and what it is to have been invited lately. -/

/-- One call of `_createInvitation`. -/
structure Stored where
  time : Nat
  token : String
  payload : InvitationPayload

def Stored.row (stored : Stored) : Invitation :=
  createInvitation stored.time stored.token stored.payload

def sentTo (contact : String) (history : List Stored) : List Stored :=
  history.filter (·.payload.recipient == some contact)

/-- The last invitation to the contact was stored less than an hour ago. -/
def SentLately (now : Nat) (contact : String) (history : List Stored) : Prop :=
  ∃ recent ∈ sentTo contact history,
    (∀ other ∈ sentTo contact history, other.time ≤ recent.time) ∧
    now - recent.time < oneHour

/-- The answer of the query for the contact, whose rows may come in any
order. -/
def AnswersFor (contact : String) (history : List Stored)
    (rows : List Invitation) : Prop :=
  ∃ found, getInvitations [("recipient", .str contact)]
      (history.map Stored.row) = some found ∧ rows.Perm found

def storedAt (row : Invitation) : Nat := row.expiration - expirationDelay

/-- The row that is looked at and the most recent one are on the same side:
less than 25 hours old and less than one hour old, or neither. -/
def LastTells (now : Nat) (rows : List Invitation) : Prop :=
  ∀ last ∈ rows.getLast?, ∀ recent ∈ rows,
    (∀ other ∈ rows, storedAt other ≤ storedAt recent) →
    now - storedAt last < 25 * oneHour ∧ now - storedAt recent < oneHour ∨
    25 * oneHour ≤ now - storedAt last ∧ oneHour ≤ now - storedAt recent

@[simp] theorem storedAt_row (stored : Stored) :
    storedAt stored.row = stored.time := by
  simp [storedAt, Stored.row, createInvitation]

theorem getInvitations_recipient {contact : String} (nonempty : contact ≠ "")
    (table : List Invitation) :
    getInvitations [("recipient", .str contact)] table =
      some (table.filter (·.recipient == some contact)) := by
  rcases getStatement_spec ["*"] [("recipient", .str contact)] with
    ⟨hnone, _⟩ | ⟨resolved, statement, hresolved, hstatement, hselects⟩
  · rw [IdentityServer.resolve_cons_str, if_neg nonempty] at hnone
    cases hnone
  · rw [IdentityServer.resolve_cons_str, if_neg nonempty] at hresolved
    cases hresolved
    rw [getInvitations, hstatement, Option.map_some]
    congr 1
    refine List.filter_congr fun row _ => ?_
    rw [hselects, Bool.eq_iff_iff, beq_iff_eq]
    cases hrecipient : row.recipient with
    | none => simp [IdentityServer.selectsAll, Invitation.cell, hrecipient]
    | some recipient =>
        simp [IdentityServer.selectsAll, Invitation.cell, hrecipient]

theorem AnswersFor.perm {contact : String} {history : List Stored}
    {rows : List Invitation} (answers : AnswersFor contact history rows)
    (nonempty : contact ≠ "") :
    rows.Perm ((sentTo contact history).map Stored.row) := by
  obtain ⟨found, hfound, hperm⟩ := answers
  rw [getInvitations_recipient nonempty, Option.some.injEq] at hfound
  rw [sentTo, ← hfound, List.filter_map] at *
  exact hperm

theorem rateLimit_refuses_iff (now : Nat) (rows : List Invitation) :
    rateLimitInvitations now (some rows) ≠ .next ↔
      ∃ last ∈ rows.getLast?, now < last.expiration + oneHour := by
  cases hlast : rows.getLast? with
  | none => simp [rateLimitInvitations, hlast]
  | some last =>
      simp only [rateLimitInvitations, hlast, Option.mem_some_iff,
        exists_eq_left']
      split
      · simp only [ne_eq, reduceCtorEq, not_false_eq_true, true_iff]
        omega
      · simp only [ne_eq, not_true_eq_false, false_iff]
        omega

theorem exists_newest {rows : List Invitation} (nonempty : rows ≠ []) :
    ∃ recent ∈ rows, ∀ other ∈ rows, storedAt other ≤ storedAt recent := by
  obtain ⟨recent, hrecent⟩ := Option.isSome_iff_exists.mp
    (List.isSome_max?_of_ne_nil (by simpa using nonempty) :
      (rows.map storedAt).max?.isSome)
  obtain ⟨hmem, hmost⟩ := List.max?_eq_some_iff.mp hrecent
  obtain ⟨row, hrow, rfl⟩ := List.mem_map.mp hmem
  exact ⟨row, hrow, fun other hother =>
    hmost _ (List.mem_map_of_mem hother)⟩

theorem sentLately_iff {contact : String} {history : List Stored}
    {rows : List Invitation} (now : Nat)
    (perm : rows.Perm ((sentTo contact history).map Stored.row)) :
    SentLately now contact history ↔
      ∃ recent ∈ rows, (∀ other ∈ rows, storedAt other ≤ storedAt recent) ∧
        now - storedAt recent < oneHour := by
  simp only [perm.mem_iff, List.mem_map, forall_exists_index, and_imp,
    forall_apply_eq_imp_iff₂, exists_exists_and_eq_and, storedAt_row]
  rfl

/-- The middleware is exact when the row that it looks at tells what the most
recent one does. -/
theorem rateLimit_exact_iff {contact : String} {history : List Stored}
    {rows : List Invitation} {now : Nat} (nonempty : contact ≠ "")
    (past : ∀ stored ∈ history, stored.time ≤ now)
    (answers : AnswersFor contact history rows) :
    (rateLimitInvitations now (some rows) ≠ .next ↔
      SentLately now contact history) ↔ LastTells now rows := by
  have hperm := answers.perm nonempty
  rw [rateLimit_refuses_iff, sentLately_iff now hperm]
  unfold LastTells
  cases hlast : rows.getLast? with
  | none =>
      rw [List.getLast?_eq_none_iff] at hlast
      simp [hlast]
  | some last =>
      have hmem := List.mem_of_getLast? hlast
      obtain ⟨stored, hstored, hrow⟩ := List.mem_map.mp (hperm.mem_iff.mp hmem)
      have hpast := past stored (List.mem_filter.mp hstored).1
      have hexpiration : last.expiration = storedAt last + expirationDelay := by
        rw [← hrow, storedAt_row]
        rfl
      have htime : storedAt last ≤ now := by rwa [← hrow, storedAt_row]
      simp only [Option.mem_some_iff, exists_eq_left', forall_eq']
      rw [hexpiration]
      obtain ⟨recent, hrecent, hmost⟩ :=
        exists_newest (List.ne_nil_of_mem hmem)
      have hlately : (∃ recent ∈ rows,
          (∀ other ∈ rows, storedAt other ≤ storedAt recent) ∧
            now - storedAt recent < oneHour) ↔
          now - storedAt recent < oneHour := by
        constructor
        · rintro ⟨other, hother, hothers, hlate⟩
          have hsame := Nat.le_antisymm (hmost other hother)
            (hothers recent hrecent)
          rwa [← hsame]
        · intro hlate
          exact ⟨recent, hrecent, hmost, hlate⟩
      rw [hlately]
      constructor
      · intro hiff other hother hothers
        have hsame := Nat.le_antisymm (hmost other hother)
          (hothers recent hrecent)
        rw [hsame]
        unfold expirationDelay oneHour at *
        omega
      · intro htells
        have hsides := htells recent hrecent hmost
        unfold expirationDelay oneHour at *
        omega

/-! An invitation of two hours ago. -/

def twoHoursAgo : Stored where
  time := 10 * oneHour
  token := "1"
  payload :=
    { sender := "@alice:example.org"
      recipient := some "bob@example.org"
      medium := some "email" }

theorem answersFor_twoHoursAgo :
    AnswersFor "bob@example.org" [twoHoursAgo] [twoHoursAgo.row] :=
  ⟨_, getInvitations_recipient (by decide) _, .refl _⟩

def sentAt (time : Nat) (recipient : String) : Stored where
  time := time
  token := "2"
  payload :=
    { sender := "@alice:example.org"
      recipient := some recipient
      medium := some "email" }

/-- Bob has been invited at hours 20, 30 and 40, and Carol in between. -/
def invitedAgain : List Stored :=
  [sentAt (20 * oneHour) "bob@example.org",
    sentAt (38 * oneHour) "carol@example.org",
    sentAt (40 * oneHour) "bob@example.org",
    sentAt (30 * oneHour) "bob@example.org"]

def againRows : List Invitation :=
  [sentAt (40 * oneHour) "bob@example.org",
    sentAt (20 * oneHour) "bob@example.org",
    sentAt (30 * oneHour) "bob@example.org"].map Stored.row

theorem answersFor_invitedAgain :
    AnswersFor "bob@example.org" invitedAgain againRows :=
  ⟨_, getInvitations_recipient (by decide) _, .swap _ _ _⟩

/-- The row that stands last is ten hours old, and the latest half an hour. -/
theorem rateLimit_exact_tomorrow :
    rateLimitInvitations (40 * oneHour + oneHour / 2) (some againRows) ≠ .next ↔
      SentLately (40 * oneHour + oneHour / 2) "bob@example.org"
        invitedAgain := by
  refine (rateLimit_exact_iff (by decide) ?_ answersFor_invitedAgain).mpr ?_
  · decide
  · intro last hlast recent _ hothers
    have hlatest := hothers (sentAt (40 * oneHour) "bob@example.org").row
      List.mem_cons_self
    have hstored : storedAt last = 30 * oneHour := by
      cases hlast
      rfl
    rw [storedAt_row] at hlatest
    rw [hstored]
    simp only [sentAt, oneHour] at hlatest ⊢
    omega

theorem second_invitation_refused :
    ¬ ∀ (contact : String) (history : List Stored) (rows : List Invitation)
      (now : Nat), contact ≠ "" → (∀ stored ∈ history, stored.time ≤ now) →
      AnswersFor contact history rows →
      (rateLimitInvitations now (some rows) ≠ .next ↔
        SentLately now contact history) := by
  intro hexact
  have hlately := (hexact "bob@example.org" [twoHoursAgo] [twoHoursAgo.row]
    (12 * oneHour) (by decide) (by simp [twoHoursAgo, oneHour])
    answersFor_twoHoursAgo).mp (by decide)
  obtain ⟨recent, hrecent, _, hlate⟩ := hlately
  obtain ⟨hmem, _⟩ := List.mem_filter.mp hrecent
  rw [List.mem_singleton.mp hmem] at hlate
  exact absurd hlate (by decide)

end TwakeKickstart.TomServer.Invitations
