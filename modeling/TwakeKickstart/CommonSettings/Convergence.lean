import TwakeKickstart.CommonSettings.Redelivery
import TwakeKickstart.Library.Turns

namespace TwakeKickstart.CommonSettings

open Library
open IdentityServer (SupportedDatabases)

/-! Many messages are handled, some of them side by side.  Nothing compares the
version of a message with the one stored. -/

abbrev Handlings :=
  Pool Effect Effect.Result World (Option CommonSettingsMessage)

abbrev HandlingEvent := PoolEvent (Option CommonSettingsMessage) Choice

def rowOf (message : Option CommonSettingsMessage) : Option UserSettings :=
  message.bind CommonSettingsMessage.row?

def isFor (userId : String) (message : Option CommonSettingsMessage) : Bool :=
  (rowOf message).any (·.matrixId == userId)

def version (message : Option CommonSettingsMessage) : Int :=
  (rowOf message).elim 0 UserSettings.version

/-- Every handling of the user's messages has ended. -/
def Quiet (userId : String) (handlings : Handlings) : Prop :=
  ∀ thread ∈ handlings.threads, isFor userId thread.1 = true →
    thread.2 = .done

/-- No call that is made for this user fails. -/
def NoFailure (userId : String) (handlings : Handlings) :
    HandlingEvent → Prop
  | .start _ => True
  | .act index choice => ∀ thread ∈ handlings.threads[index]?,
      isFor userId thread.1 = true → choice.fails = false

/-- The row of the message with the highest version among those of the user
that have been handled. -/
structure Highest (userId : String)
    (messages : List (Option CommonSettingsMessage)) (row : UserSettings) :
    Prop where
  handled : ∃ message ∈ messages, rowOf message = some row
  user : row.matrixId = userId
  highest : ∀ other ∈ messages, isFor userId other = true →
    version other ≤ row.version

/-- The message is one that the service can push: its body is not empty, unless
the row is new or nothing has changed. -/
structure Sendable (engine : SupportedDatabases) (world : World)
    (row : UserSettings) : Prop where
  named : row.matrixId ≠ ""
  body : ∀ existing ∈ (world.rowsOf row.matrixId).head?,
    (UserInformationPayload.changed (oldConfig engine existing)
      row.settings).hasKeys = true →
    (UserInformationPayload.changed (oldConfig engine existing)
      row.settings).hasFields = true

/-- A message of the user is handled when the earlier ones have been, and its
version is higher than theirs. -/
structure Next (engine : SupportedDatabases) (userId : String)
    (handlings : Handlings) (message : Option CommonSettingsMessage) :
    Prop where
  quiet : Quiet userId handlings
  higher : ∀ earlier ∈ handlings.calls, isFor userId earlier = true →
    version earlier < version message
  sendable : ∀ row ∈ rowOf message, Sendable engine handlings.world row

def Orderly (engine : SupportedDatabases) (userId : String)
    (handlings : Handlings) : HandlingEvent → Prop
  | .start message => isFor userId message = true →
      Next engine userId handlings message
  | .act index choice => NoFailure userId handlings (.act index choice)

/-! The part of the world that belongs to one user. -/

def Alike (userId : String) (world world' : World) : Prop :=
  world.rowsOf userId = world'.rowsOf userId ∧
    world.profiles userId = world'.profiles userId

def settingsTurns (userId : String) :
    Turns World (Option CommonSettingsMessage) Choice where
  mine := isFor userId
  same := Alike userId
  ok := .ok
  refl _ := ⟨rfl, rfl⟩
  trans first second :=
    ⟨first.1.trans second.1, first.2.trans second.2⟩

/-- The procedure concerns this user only. -/
def Concerns (userId : String) : Procedure → Prop
  | .done => True
  | .perform effect next =>
      (match effect with
        | .getSettings other => other = userId
        | .insertSettings row | .updateSettings row => row.matrixId = userId
        | .postInformation other _ => other = userId
        | .sleep _ | .settle _ => True) ∧
      ∀ result, Concerns userId (next result)
  | .fork _ _ => False

section Concerns

variable {userId : String}

theorem concerns_settle (failure : Option Failure) :
    Concerns userId (settle failure) := ⟨trivial, fun _ => trivial⟩

theorem concerns_updateUserSettings (row : UserSettings) :
    Concerns row.matrixId (updateUserSettings row) := by
  refine ⟨rfl, fun result => ?_⟩
  cases result with
  | none => exact concerns_settle _
  | some _ => exact concerns_settle _

theorem concerns_updateUserInformation {payload : UserInformationPayload}
    {next : Procedure} (isNext : Concerns userId next)
    (remaining attempt : Nat) :
    Concerns userId
      (updateUserInformation userId payload next remaining attempt) := by
  induction remaining generalizing attempt with
  | zero =>
      refine ⟨rfl, fun ok => ?_⟩
      cases ok with
      | true => exact isNext
      | false => exact concerns_settle _
  | succ remaining ih =>
      refine ⟨rfl, fun ok => ?_⟩
      cases ok with
      | true => exact isNext
      | false => exact ⟨trivial, fun _ => ih _⟩

theorem concerns_pushChanges (row : UserSettings)
    (payload : UserInformationPayload) :
    Concerns row.matrixId (pushChanges row payload) := by
  unfold pushChanges
  split
  · exact concerns_updateUserInformation (concerns_updateUserSettings row) 2 1
  · exact concerns_updateUserSettings row

theorem concerns_onUserId (engine : SupportedDatabases) (row : UserSettings) :
    Concerns row.matrixId (onUserId engine row) := by
  unfold onUserId
  split
  · exact concerns_settle _
  · refine ⟨rfl, fun result => ?_⟩
    cases result with
    | none => exact concerns_settle _
    | some rows =>
        cases rows with
        | cons existing _ => exact concerns_pushChanges row _
        | nil =>
            refine ⟨rfl, fun result => ?_⟩
            cases result with
            | none => exact concerns_settle _
            | some _ => exact concerns_pushChanges row _

theorem handleMessage_of_row {engine : SupportedDatabases}
    {message : Option CommonSettingsMessage} {row : UserSettings}
    (isRow : rowOf message = some row) :
    handleMessage engine message = onUserId engine row := by
  obtain ⟨parsed, rfl, hrow⟩ := Option.bind_eq_some_iff.mp isRow
  exact handleMessage_row hrow

theorem handleMessage_of_none {engine : SupportedDatabases}
    {message : Option CommonSettingsMessage} (noRow : rowOf message = none) :
    ∃ failure, handleMessage engine message = settle failure := by
  cases message with
  | none => exact ⟨_, rfl⟩
  | some parsed =>
      simp only [rowOf, Option.bind_some] at noRow
      simp only [handleMessage, noRow]
      exact ⟨_, rfl⟩

theorem Concerns.aside {other : String} {program : Procedure}
    (concerns : Concerns other program) (h : other ≠ userId) :
    (settingsTurns userId).Aside handle program := by
  induction program with
  | done => trivial
  | fork child rest _ _ => exact concerns.elim
  | perform effect next ih =>
      refine ⟨fun choice world => ?_, fun result => ih result (concerns.2 _)⟩
      have heffect := concerns.1
      cases effect with
      | getSettings _ => exact ⟨rfl, rfl⟩
      | sleep _ => exact ⟨rfl, rfl⟩
      | settle _ => exact ⟨rfl, rfl⟩
      | insertSettings row =>
          have hrow : userId ≠ row.matrixId := by
            rw [heffect]
            exact h.symm
          simp only [handle]
          split
          · exact ⟨rfl, rfl⟩
          · cases choice.effective with
            | true => exact ⟨(insert_rowsOf_other world row hrow).symm, rfl⟩
            | false => exact ⟨rfl, rfl⟩
      | updateSettings row =>
          have hrow : userId ≠ row.matrixId := by
            rw [heffect]
            exact h.symm
          simp only [handle]
          split
          · exact ⟨(update_rowsOf_other world row hrow).symm, rfl⟩
          · exact ⟨rfl, rfl⟩
      | postInformation target payload =>
          have htarget : userId ≠ target := by
            rw [heffect]
            exact h.symm
          simp only [handle]
          split
          · split
            · exact ⟨rfl, (push_other world target payload htarget).symm⟩
            · exact ⟨rfl, rfl⟩
          · exact ⟨rfl, rfl⟩

theorem Concerns.own {program : Procedure}
    (concerns : Concerns userId program) :
    (settingsTurns userId).Own handle program := by
  induction program with
  | done => trivial
  | fork child rest _ _ => exact concerns.elim
  | perform effect next ih =>
      refine ⟨fun world world' same => ?_, fun result => ih result
        (concerns.2 _)⟩
      obtain ⟨hrows, hprofile⟩ := same
      have heffect := concerns.1
      cases effect with
      | getSettings other =>
          subst heffect
          exact ⟨congrArg some hrows, hrows, hprofile⟩
      | sleep _ => exact ⟨rfl, hrows, hprofile⟩
      | settle _ => exact ⟨rfl, hrows, hprofile⟩
      | insertSettings row =>
          subst heffect
          simp only [handle, settingsTurns, hrows]
          split
          · exact ⟨rfl, hrows, hprofile⟩
          · refine ⟨rfl, ?_, hprofile⟩
            change (world.insert row).rowsOf row.matrixId =
              (world'.insert row).rowsOf row.matrixId
            rw [insert_rowsOf_same, insert_rowsOf_same, hrows]
      | updateSettings row =>
          subst heffect
          refine ⟨rfl, ?_, hprofile⟩
          change (world.update row).rowsOf row.matrixId =
            (world'.update row).rowsOf row.matrixId
          rw [update_rowsOf_same, update_rowsOf_same, hrows]
      | postInformation target payload =>
          subst heffect
          simp only [handle]
          split
          · refine ⟨rfl, hrows, ?_⟩
            change (world.push target payload).profiles target =
              (world'.push target payload).profiles target
            rw [push_same, push_same, hprofile]
          · exact ⟨rfl, hrows, hprofile⟩

end Concerns

theorem isFor_iff {userId : String} {message : Option CommonSettingsMessage} :
    isFor userId message = true ↔
      ∃ row, rowOf message = some row ∧ row.matrixId = userId := by
  unfold isFor
  cases rowOf message with
  | none => simp
  | some row => simp

theorem handleMessage_aside {engine : SupportedDatabases} {userId : String}
    {message : Option CommonSettingsMessage}
    (others : isFor userId message = false) :
    (settingsTurns userId).Aside handle (handleMessage engine message) := by
  cases hrow : rowOf message with
  | none =>
      obtain ⟨failure, hsettle⟩ := handleMessage_of_none hrow
      rw [hsettle]
      exact ⟨fun _ _ => ⟨rfl, rfl⟩, fun _ => trivial⟩
  | some row =>
      rw [handleMessage_of_row hrow]
      refine (concerns_onUserId engine row).aside fun hsame => ?_
      rw [isFor_iff.mpr ⟨row, hrow, hsame⟩] at others
      cases others

theorem handleMessage_own {engine : SupportedDatabases} {userId : String}
    {message : Option CommonSettingsMessage}
    (isMine : isFor userId message = true) :
    (settingsTurns userId).Own handle (handleMessage engine message) := by
  obtain ⟨row, hrow, rfl⟩ := isFor_iff.mp isMine
  rw [handleMessage_of_row hrow]
  exact (concerns_onUserId engine row).own

/-! One handling alone, when no call fails. -/

section Alone

variable {engine : SupportedDatabases} {world : World} {row : UserSettings}
variable {payload : UserInformationPayload}

theorem run_updateUserInformation {userId : String} {next : Procedure}
    (fields : payload.hasFields = true) (remaining attempt : Nat) :
    (updateUserInformation userId payload next remaining attempt).run
      (handle .ok) world = next.run (handle .ok) (world.push userId payload) := by
  cases remaining with
  | zero =>
      simp only [updateUserInformation, Program.run_perform, handle, fields,
        if_true, ok_effective]
      rfl
  | succ remaining =>
      simp only [updateUserInformation, Program.run_perform, handle, fields,
        if_true, ok_effective]
      rfl

theorem run_refused {userId : String} {next : Procedure}
    (noFields : payload.hasFields = false) (remaining attempt : Nat) :
    (updateUserInformation userId payload next remaining attempt).run
      (handle .ok) world = world.settle (some .userInformation) := by
  induction remaining generalizing attempt with
  | zero => simp [updateUserInformation, handle, noFields, settle, World.settle]
  | succ remaining ih =>
      simp only [updateUserInformation, Program.run_perform, handle, noFields,
        Bool.false_eq_true, if_false]
      exact ih (attempt + 1)

theorem run_updateUserSettings :
    (updateUserSettings row).run (handle .ok) world =
      (world.update row).settle none := rfl

theorem run_pushChanges (world : World) (row : UserSettings)
    (sendable : payload.hasKeys = true → payload.hasFields = true) :
    ∃ between, Pushed payload row.matrixId world between ∧
      (pushChanges row payload).run (handle .ok) world =
        (between.update row).settle none := by
  unfold pushChanges
  split
  · rename_i hkeys
    have hfields := sendable hkeys
    refine ⟨_, .inr ⟨hfields, rfl⟩, ?_⟩
    rw [run_updateUserInformation hfields, run_updateUserSettings]
  · rename_i hkeys
    exact ⟨world, .inl ⟨by simpa using hkeys, rfl⟩, run_updateUserSettings⟩

/-- A new row without a name and an avatar: the service cannot push it, and
there is nothing to push. -/
theorem agrees_of_noFields {profile : Profile} {settings : SettingsPayload}
    (noFields : (UserInformationPayload.created settings).hasFields = false) :
    Agrees profile settings := by
  simp only [UserInformationPayload.hasFields, UserInformationPayload.created,
    Option.join_some, Bool.or_eq_false_iff, Option.isSome_eq_false_iff,
    Option.isNone_iff_eq_none] at noFields
  refine ⟨fun name hname => ?_, fun url hurl => ?_⟩
  · rw [noFields.1] at hname
    cases hname
  · rw [noFields.2] at hurl
    cases hurl

theorem inStep_inserted (new : world.rowsOf row.matrixId = [])
    (agrees : Agrees (world.profiles row.matrixId) row.settings)
    (failure : Option Failure) :
    InStep ((world.insert row).settle failure) row := by
  have hrows : ((world.insert row).settle failure).rowsOf row.matrixId =
      [row] := by
    rw [settle_rowsOf, insert_rowsOf_same, new, List.nil_append]
  refine ⟨?_, fun other hother => ?_, agrees⟩
  · rw [hrows]
    exact List.mem_cons_self
  · rw [hrows] at hother
    exact List.mem_singleton.mp hother

theorem run_onUserId (agree : SidesAgree world row.matrixId)
    (sendable : Sendable engine world row) :
    InStep ((onUserId engine row).run (handle .ok) world) row := by
  unfold onUserId
  rw [if_neg sendable.named, Program.run_perform]
  simp only [handle, Choice.ok, Bool.false_eq_true, if_false]
  cases hrows : world.rowsOf row.matrixId with
  | cons existing others =>
      have hfound : existing ∈ (world.rowsOf row.matrixId).head? := by
        rw [hrows]
        rfl
      obtain ⟨between, hpushed, hrun⟩ := run_pushChanges world row
        (sendable.body existing hfound)
      have hbetween : between.rowsOf row.matrixId ≠ [] := by
        rw [hpushed.rowsOf, hrows]
        exact List.cons_ne_nil _ _
      change InStep ((pushChanges row _).run (handle .ok) world) row
      rw [hrun, inStep_updated hbetween, hpushed.agrees_iff]
      exact (agree existing (List.mem_of_mem_head? hfound)).shown_stored
  | nil =>
      simp only [onExisting, Program.run_perform, handle, hrows, ne_eq,
        not_true_eq_false, if_false, Choice.effective, Bool.not_false,
        Bool.true_or, if_true, Bool.false_eq_true]
      change InStep
        ((pushChanges row _).run (handle .ok) (world.insert row)) row
      cases hfields :
        (UserInformationPayload.created row.settings).hasFields with
      | true =>
          obtain ⟨between, hpushed, hrun⟩ := run_pushChanges
            (world.insert row) row (fun _ => hfields)
          have hbetween : between.rowsOf row.matrixId ≠ [] := by
            rw [hpushed.rowsOf, insert_rowsOf_same]
            exact List.append_ne_nil_of_right_ne_nil _ (List.cons_ne_nil _ _)
          rw [hrun, inStep_updated hbetween]
          exact hpushed.agrees_created
      | false =>
          have hkeys : (UserInformationPayload.created row.settings).hasKeys =
              true := rfl
          unfold pushChanges
          rw [if_pos hkeys, run_refused hfields]
          exact inStep_inserted hrows (agrees_of_noFields hfields) _

end Alone

/-! The handlings of one user's messages, one after the other. -/

/-- What the messages of the user that have been handled leave. -/
structure Settled (userId : String)
    (messages : List (Option CommonSettingsMessage)) (world : World) :
    Prop where
  mine : ∀ message ∈ messages, isFor userId message = true
  agree : SidesAgree world userId
  ordered : messages.Pairwise (version · < version ·)
  last : ∀ message ∈ messages.getLast?, ∀ row ∈ rowOf message,
    InStep world row

def Admits (engine : SupportedDatabases)
    (messages : List (Option CommonSettingsMessage)) (world : World)
    (message : Option CommonSettingsMessage) : Prop :=
  (∀ earlier ∈ messages, version earlier < version message) ∧
    ∀ row ∈ rowOf message, Sendable engine world row

section Turns

variable {engine : SupportedDatabases} {userId : String}
variable {world : World} {messages : List (Option CommonSettingsMessage)}

theorem InStep.sidesAgree {row : UserSettings} (h : InStep world row) :
    SidesAgree world row.matrixId := by
  intro other hother
  rw [h.only other hother]
  exact h.pushed

theorem Settled.alike {world' : World} (same : Alike userId world world')
    (settled : Settled userId messages world) :
    Settled userId messages world' := by
  obtain ⟨hrows, hprofile⟩ := same
  refine ⟨settled.mine, ?_, settled.ordered,
    fun message hmessage row hrow => ?_⟩
  · intro row hrow
    rw [← hprofile]
    rw [← hrows] at hrow
    exact settled.agree row hrow
  · have hstep := settled.last message hmessage row hrow
    obtain ⟨own, hown, huser⟩ :=
      isFor_iff.mp (settled.mine message (List.mem_of_getLast? hmessage))
    obtain rfl : row = own := Option.some.inj (hrow.symm.trans hown)
    subst huser
    refine ⟨?_, fun other hother => ?_, ?_⟩
    · rw [← hrows]
      exact hstep.stored
    · rw [← hrows] at hother
      exact hstep.only other hother
    · rw [← hprofile]
      exact hstep.pushed

theorem Settled.handle {message : Option CommonSettingsMessage}
    (settled : Settled userId messages world)
    (isMine : isFor userId message = true)
    (admits : Admits engine messages world message) :
    Settled userId (messages ++ [message])
      ((handleMessage engine message).run (CommonSettings.handle .ok)
        world) := by
  obtain ⟨row, hrow, rfl⟩ := isFor_iff.mp isMine
  have hstep := run_onUserId settled.agree (admits.2 row hrow)
  rw [handleMessage_of_row hrow]
  refine ⟨?_, hstep.sidesAgree, ?_, ?_⟩
  · intro other hother
    rcases List.mem_append.mp hother with hearlier | hlast
    · exact settled.mine other hearlier
    · rw [List.mem_singleton.mp hlast]
      exact isMine
  · refine List.pairwise_append.mpr ⟨settled.ordered,
      List.pairwise_singleton _ _, fun earlier hearlier last hlast => ?_⟩
    rw [List.mem_singleton.mp hlast]
    exact admits.1 earlier hearlier
  · intro last hlast other hother
    rw [List.getLast?_append_of_ne_nil _ (List.cons_ne_nil _ _)] at hlast
    cases hlast
    obtain rfl : row = other := Option.some.inj (hrow.symm.trans hother)
    exact hstep

theorem Settled.highest {row : UserSettings}
    (settled : Settled userId (messages.filter (isFor userId)) world)
    (highest : Highest userId messages row) : InStep world row := by
  obtain ⟨message, hmem, hrow⟩ := highest.handled
  have hmine : message ∈ messages.filter (isFor userId) :=
    List.mem_filter.mpr ⟨hmem, isFor_iff.mpr ⟨row, hrow, highest.user⟩⟩
  have hversion : version message = row.version := by simp [version, hrow]
  rcases List.eq_nil_or_concat (messages.filter (isFor userId)) with
    hnil | ⟨earlier, last, hlast⟩
  · rw [hnil] at hmine
    cases hmine
  · rw [List.concat_eq_append] at hlast
    have hsame : message = last := by
      rw [hlast, List.mem_append, List.mem_singleton] at hmine
      rcases hmine with hearlier | hsame
      · have hordered := settled.ordered
        rw [hlast] at hordered
        have hlt : version message < version last :=
          (List.pairwise_append.mp hordered).2.2 message hearlier last
            List.mem_cons_self
        have hfilter : last ∈ messages.filter (isFor userId) := by
          rw [hlast]
          exact List.mem_append_right _ List.mem_cons_self
        obtain ⟨hcalled, hfor⟩ := List.mem_filter.mp hfilter
        have hle := highest.highest last hcalled hfor
        omega
      · exact hsame
    refine settled.last message ?_ row hrow
    rw [hlast, List.getLast?_append_of_ne_nil _ (List.cons_ne_nil _ _), hsame]
    rfl

variable {start handlings : Handlings}

theorem Orderly.inTurn {event : HandlingEvent}
    (orderly : Orderly engine userId handlings event) :
    (settingsTurns userId).InTurn handle (Admits engine) handlings event := by
  cases event with
  | start message =>
      intro hmine
      obtain ⟨hquiet, hhigher, hsendable⟩ := orderly hmine
      refine ⟨fun program hprogram => ?_, fun earlier hearlier => ?_,
        hsendable⟩
      · obtain ⟨thread, hthread, rfl⟩ := List.mem_map.mp hprogram
        obtain ⟨hmem, hfor⟩ := List.mem_filter.mp hthread
        exact hquiet thread hmem hfor
      · obtain ⟨hmem, hfor⟩ := List.mem_filter.mp hearlier
        exact hhigher earlier hmem hfor
  | act index choice =>
      intro message effect next hthread hmine world
      have hfails : choice.fails = false := orderly _ hthread hmine
      have heffective : choice.effective = true := by
        simp [Choice.effective, hfails]
      cases effect with
      | getSettings _ => simp only [handle, hfails]; rfl
      | insertSettings _ => simp only [handle, hfails, heffective]; rfl
      | updateSettings _ => simp only [handle, hfails, heffective]; rfl
      | postInformation _ _ => simp only [handle, hfails, heffective]; rfl
      | sleep _ => rfl
      | settle _ => rfl

/-- Where the messages of a user are handled one after the other in the order
of their versions, the last one is what is stored and shown. -/
theorem converges_in_turn {row : UserSettings}
    (initially : start.threads = []) (agree : SidesAgree start.world userId)
    (reached : Reachable (Pool.step (handleMessage engine) handle)
      (Orderly engine userId) start handlings)
    (quiet : Quiet userId handlings)
    (highest : Highest userId handlings.calls row) :
    InStep handlings.world row := by
  have hstart : (settingsTurns userId).Holds handle (Settled userId) start := by
    refine ⟨?_, ?_, ?_, ?_⟩
    · simp [initially]
    · simp [initially]
    · intro earlier last hlast
      rw [initially] at hlast
      exact absurd hlast.symm (by simp [Turns.owing])
    · rw [Turns.called, Turns.finish, Pool.calls, initially]
      exact ⟨by simp, agree, by simp, by simp⟩
  have inTurn : Reachable (Pool.step (handleMessage engine) handle)
      ((settingsTurns userId).InTurn handle (Admits engine)) start
      handlings := reached.mono fun _ _ orderly => orderly.inTurn
  have holds := Turns.Holds.of_reachable Settled.alike inTurn hstart
    (fun _ others => handleMessage_aside others)
    (fun _ isMine => handleMessage_own isMine)
    (fun _ _ _ isMine settled admits => settled.handle isMine admits)
  have hended : (settingsTurns userId).finish handle handlings =
      handlings.world := by
    refine Turns.finish_ended fun program hprogram => ?_
    obtain ⟨thread, hthread, rfl⟩ := List.mem_map.mp hprogram
    obtain ⟨hmem, hfor⟩ := List.mem_filter.mp hthread
    exact quiet thread hmem hfor
  have hgood := holds.good
  rw [hended] at hgood
  exact hgood.highest highest

end Turns

/-! A message that is overtaken by a newer one. -/

def older : UserSettings := { newName with
  settings := { newName.settings with displayName := some "Old name" }
  version := 1 }

def olderMessage : CommonSettingsMessage where
  version := 1
  payload := some older.settings

def handled (message : CommonSettingsMessage) :
    Option CommonSettingsMessage × Procedure := (some message, .done)

def permitsNoFailure (_ : Handlings) : HandlingEvent → Bool
  | .start _ => true
  | .act _ choice => !choice.fails

theorem permitsNoFailure_sound (userId : String) (handlings : Handlings)
    (event : HandlingEvent) (h : permitsNoFailure handlings event = true) :
    NoFailure userId handlings event := by
  cases event with
  | start _ => trivial
  | act index choice =>
      have hfails : choice.fails = false := by simpa [permitsNoFailure] using h
      exact fun _ _ _ => hfails

def permitsCalls (handlings : Handlings) : HandlingEvent → Bool
  | .start _ => false
  | event => permitsNoFailure handlings event

theorem permitsCalls_orderly (engine : SupportedDatabases) (userId : String)
    (handlings : Handlings) (event : HandlingEvent)
    (h : permitsCalls handlings event = true) :
    Orderly engine userId handlings event := by
  cases event with
  | start _ => cases h
  | act index choice =>
      exact permitsNoFailure_sound userId handlings (.act index choice) h

def afterOlder : World :=
  ((noOne.insert older).push older.matrixId (.created older.settings)).update
    older |>.settle none

def afterBoth : World :=
  (afterOlder.push newName.matrixId
    { displayName := some (some "New name") }).update newName |>.settle none

def bothHandled : Handlings where
  world := afterBoth
  threads := [handled olderMessage, handled newNameMessage]

/-- Both messages for a new user, in the order of their versions. -/
theorem converges_renamed : InStep afterBoth newName := by
  have hfirst : Orderly .pg newName.matrixId ⟨noOne, []⟩
      (.start (some olderMessage)) := by
    refine fun _ => ⟨by simp [Quiet], by simp [Pool.calls], ?_⟩
    intro row hrow
    cases hrow
    exact ⟨by decide, fun _ h => by cases h⟩
  have hsecond : Orderly .pg newName.matrixId
      ⟨afterOlder, [handled olderMessage]⟩
      (.start (some newNameMessage)) := by
    refine fun _ => ⟨by simp [Quiet, handled], ?_, ?_⟩
    · simp only [Pool.calls, handled, List.map_cons, List.map_nil,
        List.mem_singleton, forall_eq]
      decide
    · intro row hrow
      cases hrow
      refine ⟨by decide, fun existing h => ?_⟩
      cases h
      decide
  have holder : runEvents (Pool.step (handleMessage .pg) handle) permitsCalls
      [.act 0 .ok, .act 0 .ok, .act 0 .ok, .act 0 .ok, .act 0 .ok]
      ⟨noOne, [(some olderMessage, handleMessage .pg (some olderMessage))]⟩ =
        some ⟨afterOlder, [handled olderMessage]⟩ := rfl
  have hnewer : runEvents (Pool.step (handleMessage .pg) handle) permitsCalls
      [.act 1 .ok, .act 1 .ok, .act 1 .ok, .act 1 .ok]
      ⟨afterOlder, [handled olderMessage,
        (some newNameMessage, handleMessage .pg (some newNameMessage))]⟩ =
        some bothHandled := rfl
  have sound := permitsCalls_orderly .pg newName.matrixId
  have hreached : Reachable (Pool.step (handleMessage .pg) handle)
      (Orderly .pg newName.matrixId) ⟨noOne, []⟩ bothHandled :=
    (((Reachable.refl.tail hfirst rfl).trans
      (reachable_of_runEvents sound holder)).tail hsecond rfl).trans
        (reachable_of_runEvents sound hnewer)
  refine converges_in_turn rfl (fun row hrow => by cases hrow) hreached
    (by simp [Quiet, bothHandled, handled])
    ⟨⟨some newNameMessage, by simp [Pool.calls, bothHandled, handled], rfl⟩,
      rfl, ?_⟩
  simp only [Pool.calls, bothHandled, handled, List.map_cons, List.map_nil,
    List.mem_cons, List.not_mem_nil, or_false, forall_eq_or_imp, forall_eq]
  decide

def afterOvertaking : World :=
  ((noOne.insert newName).push newName.matrixId
      (.created newName.settings)).update newName |>.settle none
    |>.push older.matrixId { displayName := some (some "Old name") }
    |>.update older |>.settle none

/-- The same messages, the newer one first. -/
theorem older_version_wins :
    ¬ ∀ (engine : SupportedDatabases) (userId : String) (row : UserSettings)
      (start handlings : Handlings),
      start.threads = [] → SidesAgree start.world userId →
      Reachable (Pool.step (handleMessage engine) handle) (NoFailure userId)
        start handlings →
      (handlings.calls.filter (isFor userId)).Pairwise
        (version · ≠ version ·) →
      Quiet userId handlings → Highest userId handlings.calls row →
      InStep handlings.world row := by
  intro h
  have hrun : runEvents (Pool.step (handleMessage .pg) handle)
      permitsNoFailure
      [.start (some newNameMessage), .act 0 .ok, .act 0 .ok, .act 0 .ok,
        .act 0 .ok, .act 0 .ok, .start (some olderMessage), .act 1 .ok,
        .act 1 .ok, .act 1 .ok, .act 1 .ok] ⟨noOne, []⟩ =
      some ⟨afterOvertaking, [handled newNameMessage, handled olderMessage]⟩ :=
    rfl
  have hreached := reachable_of_runEvents
    (permitsNoFailure_sound newName.matrixId) hrun
  have hstep := h .pg newName.matrixId newName _ _ rfl
    (fun row hrow => by cases hrow) hreached (by
      simp only [Pool.calls, handled]
      decide) (by simp [Quiet, handled])
    ⟨⟨some newNameMessage, by simp [Pool.calls, handled], rfl⟩, rfl, by
      simp only [Pool.calls, handled, List.map_cons, List.map_nil,
        List.mem_cons, List.not_mem_nil, or_false, forall_eq_or_imp, forall_eq]
      decide⟩
  exact absurd (hstep.pushed.1 "New name" rfl) (by decide)

end TwakeKickstart.CommonSettings
