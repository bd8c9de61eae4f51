import TwakeKickstart.IdentityServer.Cron.Directory
import TwakeKickstart.IdentityServer.Cron.UpdateUsers

namespace TwakeKickstart.IdentityServer

open Library Utils

/-! What the synchronous part of `updateUsers` launches. -/

namespace UserOperation

/-- The user whose history the operation reads or writes. -/
def address? : UserOperation → Option String
  | updateHistory row => some row.address
  | insertHistory row => some row.address
  | getActive address _ => some address
  | deactivateHistory address => some address
  | _ => none

def isRead : UserOperation → Bool
  | getUsers => true
  | getHashes => true
  | getHistory => true
  | getMatrixUsers => true
  | _ => false

end UserOperation

namespace Facts

variable (conf : Config) (facts : Facts) (now : Nat)

/-- What is launched for a row of the directory with a valid `uid`. -/
def launched (user : UserRow) : List UserOperation :=
  match toMatrixId user.uid conf.serverName with
  | .error _ => []
  | .ok matrixAddress => facts.userWrites conf now user matrixAddress

/-- A user to hash, as the row of the directory with its new activity. -/
def hashedRow (user : UserRow) : UserRow :=
  { user with active := some (facts.activity conf user.uid) }

theorem newFields_eq (user : UserRow) :
    facts.newFields conf user = userFields conf (facts.hashedRow conf user) := by
  unfold newFields userFields hashedRow activity
  split
  · rfl
  · rfl

/-- The users to hash are those that are enrolled, reduced as `updateHashes`
reduces its directory. -/
def enrolled (users : List UserRow) : List UserRow :=
  (users.filter (facts.enrols conf)).map (facts.hashedRow conf)

theorem scanUsers_eq {users : List UserRow}
    (valid : ∀ user ∈ users, ValidUid conf user)
    (updates : List UserOperation) (usersToUpdate : UpdatableFields)
    (found : Bool) :
    ∃ data, (facts.enrolled conf users).foldlM (addUser conf) usersToUpdate =
        .ok data ∧
      facts.scanUsers conf now users updates usersToUpdate found =
        (updates ++ users.flatMap (facts.launched conf now), data,
          found || users.any facts.isNew, true) := by
  induction users generalizing updates usersToUpdate found with
  | nil => exact ⟨usersToUpdate, rfl, by simp [scanUsers]⟩
  | cons user rest ih =>
      obtain ⟨mxid, hmxid⟩ := valid user List.mem_cons_self
      have hrest := ih fun other hother =>
        valid other (List.mem_cons_of_mem _ hother)
      have hlaunched : facts.launched conf now user =
          facts.userWrites conf now user mxid := by
        simp only [launched, hmxid]
      obtain ⟨data, hdata, hscan⟩ := hrest
        (updates ++ facts.userWrites conf now user mxid)
        (if facts.enrols conf user then
          usersToUpdate.put mxid (facts.newFields conf user)
        else usersToUpdate) (found || facts.isNew user)
      refine ⟨data, ?_, ?_⟩
      · unfold enrolled
        by_cases henrols : facts.enrols conf user = true
        · rw [if_pos henrols] at hdata
          rw [List.filter_cons_of_pos henrols, List.map_cons, List.foldlM_cons]
          have hadd : addUser conf usersToUpdate (facts.hashedRow conf user) =
              .ok (usersToUpdate.put mxid (facts.newFields conf user)) := by
            rw [newFields_eq]
            exact addUser_ok.mpr ⟨mxid, hmxid, rfl⟩
          rw [hadd]
          exact hdata
        · rw [if_neg henrols] at hdata
          rw [List.filter_cons_of_neg henrols]
          exact hdata
      · simp only [scanUsers, hmxid, hscan, List.flatMap_cons, hlaunched,
          List.append_assoc, List.any_cons, Bool.or_assoc]

theorem scanUsers_stops {users : List UserRow}
    (invalid : ∃ user ∈ users, ¬ ValidUid conf user)
    (updates : List UserOperation) (usersToUpdate : UpdatableFields)
    (found : Bool) :
    (facts.scanUsers conf now users updates usersToUpdate found).2.2.2 =
      false := by
  induction users generalizing updates usersToUpdate found with
  | nil =>
      obtain ⟨_, hmem, _⟩ := invalid
      cases hmem
  | cons user rest ih =>
      unfold scanUsers
      split
      · rfl
      · rename_i mxid hmxid
        apply ih
        obtain ⟨other, hother, hinvalid⟩ := invalid
        rcases List.mem_cons.mp hother with rfl | hrest
        · exact absurd ⟨mxid, hmxid⟩ hinvalid
        · exact ⟨other, hrest, hinvalid⟩

theorem scanKnown_spec {known : List (String × Option Int)}
    {seen : List String}
    (passed : (facts.scanKnown conf now known seen).2 = true)
    (operation : UserOperation) :
    operation ∈ (facts.scanKnown conf now known seen).1 ↔
      ∃ uid mxid, uid ∈ known.map Prod.fst ∧
        (∀ user ∈ facts.users, user.uid ≠ some uid) ∧
        uid ∉ inheritedMembers ∧ uid ∉ seen ∧
        toMatrixId (some uid) conf.serverName = .ok mxid ∧
        operation = .getActive mxid now := by
  induction known generalizing seen with
  | nil => simp [scanKnown]
  | cons entry rest ih =>
      obtain ⟨uid, active⟩ := entry
      -- a `uid` that is passed over is no witness
      have hskip : ∀ skipped : List String,
          ((∀ user ∈ facts.users, user.uid ≠ some uid) →
            uid ∉ inheritedMembers → uid ∉ skipped → False) →
          ((∃ other mxid, other ∈ rest.map Prod.fst ∧
            (∀ user ∈ facts.users, user.uid ≠ some other) ∧
            other ∉ inheritedMembers ∧ other ∉ skipped ∧
            toMatrixId (some other) conf.serverName = .ok mxid ∧
            operation = .getActive mxid now) ↔
          ∃ other mxid, other ∈ ((uid, active) :: rest).map Prod.fst ∧
            (∀ user ∈ facts.users, user.uid ≠ some other) ∧
            other ∉ inheritedMembers ∧ other ∉ skipped ∧
            toMatrixId (some other) conf.serverName = .ok mxid ∧
            operation = .getActive mxid now) := by
        intro skipped hno
        constructor
        · rintro ⟨other, mxid, hmem, hrest⟩
          exact ⟨other, mxid, List.mem_cons_of_mem _ hmem, hrest⟩
        · rintro ⟨other, mxid, hmem, habsent, hown, hnew, hrest⟩
          rcases List.mem_cons.mp hmem with rfl | hmem
          · exact (hno habsent hown hnew).elim
          · exact ⟨other, mxid, hmem, habsent, hown, hnew, hrest⟩
      unfold scanKnown at passed ⊢
      split at passed
      · rename_i hlisted
        rw [if_pos hlisted, ih passed]
        apply hskip
        intro habsent _ _
        obtain ⟨user, huser, huid⟩ := List.any_eq_true.mp hlisted
        exact habsent user huser (by simpa using huid)
      · rename_i hlisted
        rw [if_neg hlisted]
        split at passed
        · rename_i hseen
          rw [if_pos hseen, ih passed]
          apply hskip
          intro _ hown hnew
          simp only [Bool.or_eq_true, List.contains_eq_mem,
            decide_eq_true_eq] at hseen
          rcases hseen with hseen | hinherited
          · exact hnew hseen
          · exact hown hinherited
        · rename_i hseen
          rw [if_neg hseen]
          simp only [Bool.or_eq_true, List.contains_eq_mem, decide_eq_true_eq,
            not_or] at hseen
          split at passed
          · cases passed
          · rename_i mxid hmxid
            have habsent : ∀ user ∈ facts.users, user.uid ≠ some uid := by
              intro user huser huid
              exact hlisted (List.any_eq_true.mpr ⟨user, huser, by simp [huid]⟩)
            dsimp only
            rw [List.mem_cons, ih passed]
            constructor
            · rintro (hhead | ⟨other, found, hmem, hother, hown, hnew, hrest⟩)
              · exact ⟨uid, mxid, by simp, habsent, hseen.2, hseen.1, hmxid,
                  hhead⟩
              · exact ⟨other, found, List.mem_cons_of_mem _ hmem, hother, hown,
                  fun h => hnew (List.mem_cons_of_mem _ h), hrest⟩
            · rintro ⟨other, found, hmem, hother, hown, hnew, hid, hrest⟩
              by_cases hsame : other = uid
              · subst hsame
                rw [hmxid] at hid
                cases hid
                exact .inl hrest
              · refine .inr ⟨other, found, ?_, hother, hown, ?_, hid, hrest⟩
                · exact (List.mem_cons.mp hmem).resolve_left hsame
                · rw [List.mem_cons, not_or]
                  exact ⟨hsame, hnew⟩

/-- The pass over the known rows is interrupted by a `uid` that gives no Matrix
ID, and by nothing else. -/
theorem scanKnown_passed_iff {known : List (String × Option Int)}
    {seen : List String} :
    (facts.scanKnown conf now known seen).2 = true ↔
      ∀ uid ∈ known.map Prod.fst, (∀ user ∈ facts.users, user.uid ≠ some uid) →
        uid ∉ inheritedMembers → uid ∉ seen →
        ∃ mxid, toMatrixId (some uid) conf.serverName = .ok mxid := by
  induction known generalizing seen with
  | nil => simp [scanKnown]
  | cons entry rest ih =>
      obtain ⟨uid, active⟩ := entry
      rw [List.map_cons, List.forall_mem_cons]
      unfold scanKnown
      split
      · rename_i hlisted
        rw [ih]
        refine (and_iff_right ?_).symm
        intro habsent
        obtain ⟨user, huser, huid⟩ := List.any_eq_true.mp hlisted
        exact absurd (by simpa using huid) (habsent user huser)
      · rename_i hlisted
        have habsent : ∀ user ∈ facts.users, user.uid ≠ some uid := by
          intro user huser huid
          exact hlisted (List.any_eq_true.mpr ⟨user, huser, by simp [huid]⟩)
        split
        · rename_i hseen
          rw [ih]
          refine (and_iff_right ?_).symm
          intro _ hown hnew
          simp only [Bool.or_eq_true, List.contains_eq_mem,
            decide_eq_true_eq] at hseen
          exact absurd hseen (not_or.mpr ⟨hnew, hown⟩)
        · rename_i hseen
          simp only [Bool.or_eq_true, List.contains_eq_mem, decide_eq_true_eq,
            not_or] at hseen
          split
          · rename_i hinvalid
            refine iff_of_false Bool.false_ne_true ?_
            intro hall
            obtain ⟨mxid, hmxid⟩ := hall.1 habsent hseen.2 hseen.1
            rw [hinvalid] at hmxid
            cases hmxid
          · rename_i mxid hmxid
            dsimp only
            rw [ih]
            constructor
            · intro hall
              refine ⟨fun _ _ _ => ⟨mxid, hmxid⟩, ?_⟩
              intro other hother hgone hown hnew
              by_cases hsame : other = uid
              · exact ⟨mxid, hsame ▸ hmxid⟩
              · refine hall other hother hgone hown ?_
                rw [List.mem_cons, not_or]
                exact ⟨hsame, hnew⟩
            · intro hall other hother hgone hown hnew
              exact hall.2 other hother hgone hown
                fun h => hnew (List.mem_cons_of_mem _ h)

theorem scanKnown_sound {known : List (String × Option Int)}
    {seen : List String} {operation : UserOperation}
    (h : operation ∈ (facts.scanKnown conf now known seen).1) :
    ∃ uid mxid, uid ∈ known.map Prod.fst ∧
      (∀ user ∈ facts.users, user.uid ≠ some uid) ∧ uid ∉ inheritedMembers ∧
      toMatrixId (some uid) conf.serverName = .ok mxid ∧
      operation = .getActive mxid now := by
  induction known generalizing seen with
  | nil => cases h
  | cons entry rest ih =>
      obtain ⟨uid, active⟩ := entry
      have hlater : (∃ other mxid, other ∈ rest.map Prod.fst ∧
          (∀ user ∈ facts.users, user.uid ≠ some other) ∧
          other ∉ inheritedMembers ∧
          toMatrixId (some other) conf.serverName = .ok mxid ∧
          operation = .getActive mxid now) →
          ∃ other mxid, other ∈ ((uid, active) :: rest).map Prod.fst ∧
          (∀ user ∈ facts.users, user.uid ≠ some other) ∧
          other ∉ inheritedMembers ∧
          toMatrixId (some other) conf.serverName = .ok mxid ∧
          operation = .getActive mxid now := by
        rintro ⟨other, mxid, hmem, hrest⟩
        exact ⟨other, mxid, List.mem_cons_of_mem _ hmem, hrest⟩
      unfold scanKnown at h
      split at h
      · exact hlater (ih h)
      · rename_i hlisted
        split at h
        · exact hlater (ih h)
        · rename_i hseen
          split at h
          · cases h
          · rename_i mxid hmxid
            rcases List.mem_cons.mp h with hhead | hrest
            · refine ⟨uid, mxid, by simp, ?_, ?_, hmxid, hhead⟩
              · intro user huser huid
                exact hlisted
                  (List.any_eq_true.mpr ⟨user, huser, by simp [huid]⟩)
              · intro hinherited
                exact hseen (by simp [hinherited])
            · exact hlater (ih hrest)

end Facts

end TwakeKickstart.IdentityServer
