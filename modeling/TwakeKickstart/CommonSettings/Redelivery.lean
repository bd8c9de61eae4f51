import TwakeKickstart.Library.Async
import TwakeKickstart.CommonSettings.Service

namespace TwakeKickstart.CommonSettings

open Library
open IdentityServer (SupportedDatabases)

/-! A message whose handling has failed is delivered again. -/

def always (_ : Effect) (_ : Choice) (_ : World) : Bool := true

def World.settle (world : World) (failure : Option Failure) : World :=
  { world with settled := world.settled ++ [failure] }

/-- One handling, alone, that resolves. -/
def Resolves (engine : SupportedDatabases) (message : CommonSettingsMessage)
    (choices : List Choice) (world final : World) : Prop :=
  ∃ rest, (handleMessage engine (some message)).play handle always world
    choices = some (final, rest) ∧ final.settled.getLast? = some none

/-- One handling, alone, that rejects. -/
def Rejects (engine : SupportedDatabases) (message : CommonSettingsMessage)
    (choices : List Choice) (world final : World) : Prop :=
  ∃ rest failure, (handleMessage engine (some message)).play handle always
    world choices = some (final, rest) ∧
    final.settled.getLast? = some (some failure)

/-- The failed handling has not left a new row behind without the profile that
belongs to it; only PostgreSQL gives the stored fields back. -/
def LeftToRepair (engine : SupportedDatabases) (world failed : World)
    (row : UserSettings) : Prop :=
  engine = .sqlite ∨ world.rowsOf row.matrixId ≠ [] ∨
    failed.rowsOf row.matrixId = [] ∨
    Agrees (failed.profiles row.matrixId) row.settings

@[simp] theorem settle_rowsOf (world : World) (failure : Option Failure)
    (userId : String) : (world.settle failure).rowsOf userId =
      world.rowsOf userId := rfl

@[simp] theorem settle_profiles (world : World) (failure : Option Failure) :
    (world.settle failure).profiles = world.profiles := rfl

@[simp] theorem settle_last (world : World) (failure : Option Failure) :
    (world.settle failure).settled.getLast? = some failure := by
  simp [World.settle]

theorem push_push (world : World) (userId : String)
    (payload : UserInformationPayload) :
    (world.push userId payload).push userId payload =
      world.push userId payload := by
  unfold World.push
  simp only [Function.update_self, Function.update_idem]
  congr 2
  cases payload.displayName.join <;> cases payload.avatarUrl.join <;> rfl

section Played

variable {engine : SupportedDatabases} {row : UserSettings}
variable {payload : UserInformationPayload} {world : World}
variable {choices : List Choice} {final : World × List Choice}

theorem played_settle {failure : Option Failure}
    (h : (settle failure).play handle always world choices = some final) :
    final.1 = world.settle failure := by
  obtain ⟨choice, rest, _, hrest⟩ := Program.play_perform h
  exact Program.play_done hrest

theorem played_updateUserSettings
    (h : (updateUserSettings row).play handle always world choices =
      some final) :
    final.1 = (world.update row).settle none ∨
      ∃ failure, final.1 = world.settle (some failure) ∨
        final.1 = (world.update row).settle (some failure) := by
  obtain ⟨choice, rest, _, hrest⟩ := Program.play_perform h
  cases hfails : choice.fails with
  | false =>
      simp only [handle, Choice.effective, hfails, Bool.not_false,
        Bool.true_or, if_true, Bool.false_eq_true, if_false] at hrest
      exact .inl (played_settle hrest)
  | true =>
      simp only [handle, Choice.effective, hfails, Bool.not_true,
        Bool.false_or, if_true] at hrest
      have hfinal := played_settle hrest
      split at hfinal
      · exact .inr ⟨_, .inr hfinal⟩
      · exact .inr ⟨_, .inl hfinal⟩

/-- One attempt to push the payload, which may have been carried out when it
fails. -/
theorem handle_postInformation (choice : Choice) (world : World)
    (userId : String) (payload : UserInformationPayload) :
    (handle choice (.postInformation userId payload) world).2 = world ∧
      (handle choice (.postInformation userId payload) world).1 = false ∨
    payload.hasFields = true ∧
      (handle choice (.postInformation userId payload) world).2 =
        world.push userId payload := by
  cases hfields : payload.hasFields with
  | false =>
      refine .inl ⟨?_, ?_⟩
      · simp [handle, hfields]
      · simp [handle, hfields]
  | true =>
      cases heffective : choice.effective with
      | true => exact .inr ⟨rfl, by simp [handle, hfields, heffective]⟩
      | false =>
          have hfails : choice.fails = true := by
            cases hfails : choice.fails with
            | true => rfl
            | false => simp [Choice.effective, hfails] at heffective
          refine .inl ⟨?_, ?_⟩
          · simp [handle, hfields, heffective]
          · simp [handle, hfields, hfails]

/-- The attempts end with the payload pushed, or with a failure, whether or not
it has been pushed. -/
theorem played_attempts {userId : String} {next : Procedure}
    {remaining attempt : Nat}
    (h : (updateUserInformation userId payload next remaining attempt).play
      handle always world choices = some final) :
    (payload.hasFields = true ∧ ∃ rest,
      next.play handle always (world.push userId payload) rest = some final) ∨
    ∃ between failure, final.1 = between.settle (some failure) ∧
      (between = world ∨
        payload.hasFields = true ∧ between = world.push userId payload) := by
  induction remaining generalizing attempt world choices with
  | zero =>
      obtain ⟨choice, rest, _, hrest⟩ := Program.play_perform h
      rcases handle_postInformation choice world userId payload with
        ⟨hworld, hfalse⟩ | ⟨hfields, hworld⟩
      · rw [hworld, hfalse, if_neg Bool.false_ne_true] at hrest
        exact .inr ⟨_, _, played_settle hrest, .inl rfl⟩
      · rw [hworld] at hrest
        split at hrest
        · exact .inl ⟨hfields, rest, hrest⟩
        · exact .inr ⟨_, _, played_settle hrest, .inr ⟨hfields, rfl⟩⟩
  | succ remaining ih =>
      obtain ⟨choice, rest, _, hrest⟩ := Program.play_perform h
      rcases handle_postInformation choice world userId payload with
        ⟨hworld, hfalse⟩ | ⟨hfields, hworld⟩
      · rw [hworld, hfalse, if_neg Bool.false_ne_true] at hrest
        obtain ⟨_, _, _, hretry⟩ := Program.play_perform hrest
        exact ih hretry
      · rw [hworld] at hrest
        split at hrest
        · exact .inl ⟨hfields, rest, hrest⟩
        · obtain ⟨_, _, _, hretry⟩ := Program.play_perform hrest
          have hagain := ih hretry
          simp only [handle, push_push] at hagain
          rcases hagain with hpushed | ⟨between, failure, hfinal, hbetween⟩
          · exact .inl hpushed
          · rcases hbetween with hsame | hsame
            · exact .inr ⟨between, failure, hfinal, .inr ⟨hfields, hsame⟩⟩
            · exact .inr ⟨between, failure, hfinal, .inr hsame⟩

/-- The profile has all of the payload. -/
def Pushed (payload : UserInformationPayload) (userId : String)
    (world between : World) : Prop :=
  payload.hasKeys = false ∧ between = world ∨
    payload.hasFields = true ∧ between = world.push userId payload

theorem played_pushChanges
    (h : (pushChanges row payload).play handle always world choices =
      some final) :
    (∃ between, Pushed payload row.matrixId world between ∧
      (final.1 = (between.update row).settle none ∨
        ∃ failure, final.1 = (between.update row).settle (some failure))) ∨
    ∃ between failure, final.1 = between.settle (some failure) ∧
      (between = world ∨
        payload.hasFields = true ∧
          between = world.push row.matrixId payload) := by
  have hupdate : ∀ {between : World} {rest : List Choice},
      Pushed payload row.matrixId world between →
      (updateUserSettings row).play handle always between rest = some final →
      (∃ between, Pushed payload row.matrixId world between ∧
        (final.1 = (between.update row).settle none ∨
          ∃ failure, final.1 = (between.update row).settle (some failure))) ∨
      ∃ between failure, final.1 = between.settle (some failure) ∧
        (between = world ∨
          payload.hasFields = true ∧
            between = world.push row.matrixId payload) := by
    intro between rest hpushed hrest
    rcases played_updateUserSettings hrest with hdone | ⟨failure, hfailed⟩
    · exact .inl ⟨between, hpushed, .inl hdone⟩
    · rcases hfailed with hkept | hupdated
      · exact .inr ⟨between, failure, hkept, hpushed.imp_left And.right⟩
      · exact .inl ⟨between, hpushed, .inr ⟨failure, hupdated⟩⟩
  unfold pushChanges at h
  split at h
  · rcases played_attempts h with ⟨hfields, rest, hrest⟩ | hfailed
    · exact hupdate (.inr ⟨hfields, rfl⟩) hrest
    · exact .inr hfailed
  · rename_i hkeys
    exact hupdate (.inl ⟨by simpa using hkeys, rfl⟩) h

theorem played_onUserId
    (h : (onUserId engine row).play handle always world choices =
      some final) :
    (∃ failure, final.1 = world.settle (some failure)) ∨
    (∃ existing rest, world.rowsOf row.matrixId = existing :: rest ∧
      ∃ more, (pushChanges row
        (.changed (oldConfig engine existing) row.settings)).play handle always
          world more = some final) ∨
    (world.rowsOf row.matrixId = [] ∧
      ((∃ failure, final.1 = (world.insert row).settle (some failure)) ∨
        ∃ more, (pushChanges row (.created row.settings)).play handle always
          (world.insert row) more = some final)) := by
  unfold onUserId at h
  split at h
  · exact .inl ⟨_, played_settle h⟩
  · obtain ⟨choice, rest, _, hrest⟩ := Program.play_perform h
    cases hfails : choice.fails with
    | true =>
        simp only [handle, hfails, if_true] at hrest
        exact .inl ⟨_, played_settle hrest⟩
    | false =>
        simp only [handle, hfails, Bool.false_eq_true, if_false] at hrest
        cases hrows : world.rowsOf row.matrixId with
        | cons existing others =>
            rw [hrows] at hrest
            exact .inr (.inl ⟨existing, others, rfl, rest, hrest⟩)
        | nil =>
            rw [hrows] at hrest
            obtain ⟨choice, more, _, hmore⟩ := Program.play_perform hrest
            simp only [handle, hrows, ne_eq, not_true_eq_false, if_false]
              at hmore
            cases hfails : choice.fails with
            | false =>
                simp only [hfails, Choice.effective, Bool.not_false,
                  Bool.true_or, if_true, Bool.false_eq_true, if_false] at hmore
                exact .inr (.inr ⟨rfl, .inr ⟨more, hmore⟩⟩)
            | true =>
                simp only [hfails, Choice.effective, Bool.not_true,
                  Bool.false_or, if_true] at hmore
                have hfinal := played_settle hmore
                split at hfinal
                · exact .inr (.inr ⟨rfl, .inl ⟨_, hfinal⟩⟩)
                · exact .inl ⟨_, hfinal⟩

end Played

/-! What is left once a handling resolves. -/

/-- The fields that have not changed since the old settings are shown. -/
def Shown (old profile : Profile) (settings : SettingsPayload) : Prop :=
  (old.displayName = settings.displayName →
    ∀ name ∈ settings.displayName, profile.displayName = some name) ∧
  (old.avatarUrl = settings.avatar →
    ∀ url ∈ settings.avatar, profile.avatarUrl = some url)

theorem Agrees.shown {old profile : Profile} {settings : SettingsPayload}
    (h : Agrees profile settings) : Shown old profile settings :=
  ⟨fun _ => h.1, fun _ => h.2⟩

theorem Agrees.shown_stored {engine : SupportedDatabases}
    {existing : UserSettings} {profile : Profile} {settings : SettingsPayload}
    (h : Agrees profile existing.settings) :
    Shown (oldConfig engine existing) profile settings := by
  cases engine with
  | pg =>
      refine ⟨fun hsame name hname => ?_, fun hsame url hurl => ?_⟩
      · rw [← hsame] at hname
        exact h.1 name hname
      · rw [← hsame] at hurl
        exact h.2 url hurl
  | sqlite =>
      refine ⟨fun hsame name hname => ?_, fun hsame url hurl => ?_⟩
      · rw [← hsame] at hname
        cases hname
      · rw [← hsame] at hurl
        cases hurl

/-- On PostgreSQL a message that finds its own settings stored has nothing to
push. -/
theorem shown_own {engine : SupportedDatabases} {row : UserSettings}
    {profile : Profile} :
    Shown (oldConfig engine row) profile row.settings ↔
      engine = .sqlite ∨ Agrees profile row.settings := by
  cases engine with
  | pg =>
      refine ⟨fun h => .inr ⟨h.1 rfl, h.2 rfl⟩, ?_⟩
      rintro (hsqlite | hagrees)
      · cases hsqlite
      · exact hagrees.shown
  | sqlite =>
      refine ⟨fun _ => .inl rfl, fun _ => ⟨?_, ?_⟩⟩
      · intro hsame name hname
        rw [← hsame] at hname
        cases hname
      · intro hsame url hurl
        rw [← hsame] at hurl
        cases hurl

theorem Pushed.agrees_iff {old : Profile} {userId : String}
    {settings : SettingsPayload} {world between : World}
    (pushed : Pushed (.changed old settings) userId world between) :
    Agrees (between.profiles userId) settings ↔
      Shown old (world.profiles userId) settings := by
  rcases pushed with ⟨hkeys, rfl⟩ | ⟨_, rfl⟩
  · exact ⟨Agrees.shown, fun h => agrees_unchanged hkeys h.1 h.2⟩
  · rw [push_same]
    refine ⟨fun h => ⟨fun hsame name hname => ?_, fun hsame url hurl => ?_⟩,
      fun h => agrees_changed h.1 h.2⟩
    · have hshown := h.1 name hname
      simpa [UserInformationPayload.changed, hsame] using hshown
    · have hshown := h.2 url hurl
      simpa [UserInformationPayload.changed, hsame] using hshown

theorem Pushed.rowsOf {payload : UserInformationPayload} {userId : String}
    {world between : World} (pushed : Pushed payload userId world between)
    (other : String) : between.rowsOf other = world.rowsOf other := by
  rcases pushed with ⟨_, rfl⟩ | ⟨_, rfl⟩
  · rfl
  · rfl

theorem Pushed.agrees_created {userId : String} {settings : SettingsPayload}
    {world between : World}
    (pushed : Pushed (.created settings) userId world between) :
    Agrees (between.profiles userId) settings := by
  rcases pushed with ⟨hkeys, _⟩ | ⟨_, rfl⟩
  · cases hkeys
  · rw [push_same]
    exact CommonSettings.agrees_created rfl

theorem inStep_updated {between : World} {row : UserSettings}
    {failure : Option Failure} (h : between.rowsOf row.matrixId ≠ []) :
    InStep ((between.update row).settle failure) row ↔
      Agrees (between.profiles row.matrixId) row.settings := by
  refine ⟨InStep.pushed, fun hagrees => ⟨?_, ?_, hagrees⟩⟩
  · rw [settle_rowsOf, update_rowsOf_same]
    obtain ⟨other, rest, hrows⟩ := List.exists_cons_of_ne_nil h
    rw [hrows]
    exact List.mem_cons_self
  · intro other hother
    rw [settle_rowsOf, update_rowsOf_same] at hother
    obtain ⟨_, _, rfl⟩ := List.mem_map.mp hother
    rfl

section Redelivery

variable {engine : SupportedDatabases} {message : CommonSettingsMessage}
variable {row : UserSettings} {world failed final : World}
variable {choices : List Choice}

theorem not_resolved {between : World} {failure : Failure}
    (isFinal : final = between.settle (some failure))
    (resolved : final.settled.getLast? = some none) : False := by
  rw [isFinal, settle_last] at resolved
  cases resolved

theorem not_rejected {between : World} {failure : Failure}
    (isFinal : final = between.settle none)
    (rejected : final.settled.getLast? = some (some failure)) : False := by
  rw [isFinal, settle_last] at rejected
  cases rejected

theorem handleMessage_row (isRow : message.row? = some row) :
    handleMessage engine (some message) = onUserId engine row := by
  simp only [handleMessage, isRow]

/-- A handling that resolves leaves both sides in step where what it took for
unchanged was shown. -/
theorem Resolves.inStep_iff (isRow : message.row? = some row)
    (resolves : Resolves engine message choices world final) :
    InStep final row ↔ ∀ existing ∈ (world.rowsOf row.matrixId).head?,
      Shown (oldConfig engine existing) (world.profiles row.matrixId)
        row.settings := by
  obtain ⟨rest, hplayed, hlast⟩ := resolves
  rw [handleMessage_row isRow] at hplayed
  rcases played_onUserId hplayed with ⟨failure, hfinal⟩ |
    ⟨existing, others, hrows, more, hpushes⟩ | ⟨hrows, hcreated⟩
  · exact (not_resolved hfinal hlast).elim
  · rcases played_pushChanges hpushes with
      ⟨between, hpushed, hfinal | ⟨failure, hfinal⟩⟩ |
      ⟨between, failure, hfinal, _⟩
    · have hfound : between.rowsOf row.matrixId ≠ [] := by
        rw [hpushed.rowsOf, hrows]
        exact List.cons_ne_nil _ _
      simp only at hfinal
      rw [hfinal, inStep_updated hfound, hpushed.agrees_iff, hrows]
      simp
    · exact (not_resolved hfinal hlast).elim
    · exact (not_resolved hfinal hlast).elim
  · rw [hrows]
    refine iff_of_true ?_ (fun _ h => by cases h)
    rcases hcreated with ⟨failure, hfinal⟩ | ⟨more, hpushes⟩
    · exact (not_resolved hfinal hlast).elim
    · rcases played_pushChanges hpushes with
        ⟨between, hpushed, hfinal | ⟨failure, hfinal⟩⟩ |
        ⟨between, failure, hfinal, _⟩
      · have hfound : between.rowsOf row.matrixId ≠ [] := by
          rw [hpushed.rowsOf, insert_rowsOf_same]
          exact List.append_ne_nil_of_right_ne_nil _ (List.cons_ne_nil _ _)
        simp only at hfinal
        rw [hfinal, inStep_updated hfound]
        exact hpushed.agrees_created
      · exact (not_resolved hfinal hlast).elim
      · exact (not_resolved hfinal hlast).elim

/-- What a failed handling leaves of the row and of the profile: both still
agree, or the profile is the one of the message already, or the row is new and
the profile is not. -/
theorem Rejects.left (isRow : message.row? = some row)
    (agree : SidesAgree world row.matrixId)
    (rejects : Rejects engine message choices world failed) :
    (world.rowsOf row.matrixId ≠ [] ∨ failed.rowsOf row.matrixId = []) ∧
      (SidesAgree failed row.matrixId ∨
        Agrees (failed.profiles row.matrixId) row.settings) ∨
    world.rowsOf row.matrixId = [] ∧
      failed.rowsOf row.matrixId = [row] := by
  obtain ⟨rest, failure, hplayed, hlast⟩ := rejects
  rw [handleMessage_row isRow] at hplayed
  rcases played_onUserId hplayed with ⟨failure, hfinal⟩ |
    ⟨existing, others, hrows, more, hpushes⟩ | ⟨hrows, hcreated⟩
  · simp only at hfinal
    rw [hfinal]
    refine .inl ⟨?_, .inl agree⟩
    rw [settle_rowsOf]
    exact (em _).symm
  · have hshown : Shown (oldConfig engine existing)
        (world.profiles row.matrixId) row.settings :=
      (agree existing (hrows ▸ List.mem_cons_self)).shown_stored
    refine .inl ⟨.inl (hrows ▸ List.cons_ne_nil _ _), ?_⟩
    rcases played_pushChanges hpushes with
      ⟨between, hpushed, hfinal | ⟨failure, hfinal⟩⟩ |
      ⟨between, failure, hfinal, hbetween⟩
    · exact (not_rejected hfinal hlast).elim
    · simp only at hfinal
      rw [hfinal]
      exact .inr (hpushed.agrees_iff.mpr hshown)
    · simp only at hfinal
      rw [hfinal]
      rcases hbetween with rfl | ⟨hfields, rfl⟩
      · exact .inl agree
      · exact .inr ((Pushed.agrees_iff (.inr ⟨hfields, rfl⟩)).mpr hshown)
  · refine .inr ⟨hrows, ?_⟩
    have hinsert : (world.insert row).rowsOf row.matrixId = [row] := by
      rw [insert_rowsOf_same, hrows, List.nil_append]
    rcases hcreated with ⟨failure, hfinal⟩ | ⟨more, hpushes⟩
    · simp only at hfinal
      rw [hfinal]
      exact hinsert
    · rcases played_pushChanges hpushes with
        ⟨between, hpushed, hfinal | ⟨failure, hfinal⟩⟩ |
        ⟨between, failure, hfinal, hbetween⟩
      · exact (not_rejected hfinal hlast).elim
      · simp only at hfinal
        rw [hfinal, settle_rowsOf, update_rowsOf_same, hpushed.rowsOf, hinsert]
        rfl
      · simp only at hfinal
        rw [hfinal]
        rcases hbetween with rfl | ⟨_, rfl⟩
        · exact hinsert
        · exact hinsert

/-- Redelivery repairs what a failed handling has left, unless that is a new
row whose profile has not been pushed. -/
theorem redelivery_repairs_iff {later : List Choice}
    (isRow : message.row? = some row) (agree : SidesAgree world row.matrixId)
    (rejects : Rejects engine message choices world failed)
    (resolves : Resolves engine message later failed final) :
    InStep final row ↔ LeftToRepair engine world failed row := by
  rw [resolves.inStep_iff isRow]
  rcases rejects.left isRow agree with ⟨hleft, hagrees⟩ | ⟨hnew, hrow⟩
  · refine iff_of_true ?_ (.inr (by tauto))
    rintro existing hexisting
    rcases hagrees with hsides | hpushed
    · exact (hsides existing (List.mem_of_mem_head? hexisting)).shown_stored
    · exact hpushed.shown
  · unfold LeftToRepair
    rw [hrow, hnew]
    simp [shown_own]

end Redelivery

def newName : UserSettings where
  matrixId := "@user:server.com"
  settings :=
    { matrixId := some "@user:server.com", displayName := some "New name" }
  version := 2

def newNameMessage : CommonSettingsMessage where
  version := 2
  payload := some newName.settings

def oldName : World where
  rows := [{ newName with
    settings := { newName.settings with displayName := some "Old name" }
    version := 1 }]
  profiles _ := { displayName := some "Old name" }

def failing : Choice := ⟨true, false⟩

/-- The lookup of the row fails; the second handling changes the name. -/
theorem redelivery_repairs_renamed :
    InStep (((oldName.settle (some .database)).push newName.matrixId
      { displayName := some (some "New name") }).update newName |>.settle none)
      newName := by
  have hagree : SidesAgree oldName newName.matrixId := by
    intro row hrow
    rw [mem_rowsOf] at hrow
    simp only [oldName, List.mem_singleton] at hrow
    rw [hrow.1]
    exact ⟨fun _ h => h, fun _ h => by cases h⟩
  have hrejects : Rejects .pg newNameMessage [failing, .ok] oldName
      (oldName.settle (some .database)) := ⟨[], .database, rfl, rfl⟩
  have hresolves : Resolves .pg newNameMessage [.ok, .ok, .ok, .ok]
      (oldName.settle (some .database))
      (((oldName.settle (some .database)).push newName.matrixId
        { displayName := some (some "New name") }).update newName |>.settle
          none) := ⟨[], rfl, rfl⟩
  exact (redelivery_repairs_iff rfl hagree hrejects hresolves).mpr
    (.inr (.inl (List.cons_ne_nil _ _)))

def noOne : World where
  rows := []
  profiles _ := {}

/-- A new user: the row is inserted and the three attempts to push the name
fail.  The second handling finds the row and takes the name for pushed. -/
theorem redelivery_keeps_old_profile :
    ¬ ∀ (engine : SupportedDatabases) (message : CommonSettingsMessage)
      (row : UserSettings) (choices later : List Choice)
      (world failed final : World),
      message.row? = some row → SidesAgree world row.matrixId →
      Rejects engine message choices world failed →
      Resolves engine message later failed final → InStep final row := by
  intro h
  have hstep := h .pg newNameMessage newName
    [.ok, .ok, failing, .ok, failing, .ok, failing, .ok] [.ok, .ok, .ok]
    noOne ((noOne.insert newName).settle (some .userInformation))
    ((((noOne.insert newName).settle (some .userInformation)).update
      newName).settle none) rfl (fun row hrow => by cases hrow)
    ⟨[], .userInformation, rfl, rfl⟩ ⟨[], rfl, rfl⟩
  cases hstep.pushed.1 "New name" rfl

end TwakeKickstart.CommonSettings
