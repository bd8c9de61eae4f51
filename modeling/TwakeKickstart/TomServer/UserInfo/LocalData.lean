import TwakeKickstart.TomServer.UserInfo.Batch
import TwakeKickstart.TomServer.UserInfo.Service

namespace TwakeKickstart.TomServer.UserInfo

open Library Utils
open Addressbook (Contact truthy)
open IdentityServer (DirectoryRow Entry)

/-! The rows of the Matrix profiles and of the directory belong to users of the
own server; they are found by the local part, whatever server an ID names. -/

def serverPart (id : String) : String :=
  String.ofList ((id.toList.dropWhile (· != ':')).drop 1)

/-- The rows that are kept under the full ID. -/
def withoutLocal (rows : UserRows) : UserRows :=
  { rows with matrix := none, directory := none }

/-- The local rows add nothing to the other ones. -/
structure Covered (visible : ProfileField → Bool) (rows : UserRows) :
    Prop where
  displayName : localName rows = none ∨
    truthy rows.payload.displayName = true ∨ truthy rows.contactName = true
  avatarUrl : truthy rows.profileRow.avatarUrl = false
  sn : truthy (rows.entry.lookup "sn") = true →
    truthy rows.payload.lastName = true
  given : rows.given = none ∨ truthy rows.payload.firstName = true
  mail : truthy (rows.entry.lookup "mail") = true → visible .email = true →
    rows.payload.email = rows.entry.lookup "mail"
  mobile : truthy (rows.entry.lookup "mobile") = true →
    visible .phone = true → rows.payload.phone = rows.entry.lookup "mobile"
  workplaceFqdn : truthy (rows.entry.lookup "workplaceFqdn") = false

theorem replaced_twice (value middle old : Option String) :
    replaced value (replaced middle old) = replaced value (replaced middle none) ↔
      old = none ∨ truthy middle = true ∨ truthy value = true := by
  unfold replaced
  cases truthy value with
  | true => simp
  | false =>
      cases truthy middle with
      | true => simp
      | false => simp

theorem pushed_shown (visible : Bool) (own other : Option String) :
    pushedWhen visible own (shown visible other) =
        pushedWhen visible own none ↔
      (truthy other = true → visible = true → own = other) := by
  cases visible with
  | false => simp [pushedWhen, shown]
  | true =>
      cases hother : truthy other with
      | false => simp [pushedWhen, shown, hother]
      | true =>
          obtain ⟨value, rfl⟩ : ∃ value, other = some value := by
            cases other with
            | none => cases hother
            | some value => exact ⟨value, rfl⟩
          have hvalue : value ≠ "" := by simpa [truthy] using hother
          simp only [pushedWhen, shown, hother, Bool.true_and, if_true,
            Option.map_some, forall_const]
          cases own with
          | none => simp
          | some text =>
              by_cases hempty : text = ""
              · subst hempty
                simp [pushed, hvalue.symm]
              · by_cases hsame : text = value
                · subst hsame
                  simp [pushed, hempty]
                · simp [pushed, hempty, hsame]

theorem gathered_withoutLocal (visible : ProfileField → Bool) (id : String)
    (rows : UserRows) :
    gathered visible id rows = gathered visible id (withoutLocal rows) ↔
      Covered visible rows := by
  have hname : localName (withoutLocal rows) = none := rfl
  have hgiven : (withoutLocal rows).given = none := rfl
  have hentry : ∀ key, (withoutLocal rows).entry.lookup key = none :=
    fun _ => rfl
  have hprofile : (withoutLocal rows).profileRow.avatarUrl = none := rfl
  have hpayload : (withoutLocal rows).payload = rows.payload := rfl
  have hcontact : (withoutLocal rows).contactName = rows.contactName := rfl
  have hshown : ∀ visible, shown visible none = none := fun _ => rfl
  rw [gathered_eq, gathered_eq, hname, hgiven, hprofile, hpayload, hcontact]
  simp only [hentry, hshown, UserInformation.mk.injEq, true_and,
    replaced_none, replaced_none_eq, replaced_twice, pushed_shown,
    replaced_eq_iff]
  constructor
  · rintro ⟨hdisplayName, havatar, hsn, -, hfirst, -, hmail, hmobile, hwork⟩
    refine ⟨hdisplayName, havatar, fun hthere => ?_, hfirst.symm, hmail,
      hmobile, hwork⟩
    refine hsn.resolve_right ?_
    rw [hthere]
    decide
  · intro covered
    have hsn : truthy rows.payload.lastName = true ∨
        truthy (rows.entry.lookup "sn") = false := by
      cases h : truthy (rows.entry.lookup "sn") with
      | false => exact .inr rfl
      | true => exact .inl (covered.sn h)
    exact ⟨covered.displayName, covered.avatarUrl, hsn, hsn,
      covered.given.symm, covered.given.symm, covered.mail, covered.mobile,
      covered.workplaceFqdn⟩

section Foreign

variable (config : Config) (sources : Sources) (ids : List String)
variable (viewer : Option String) (id : String)

def Foreign : Prop := serverPart id ≠ config.serverName

/-- The rows that are found for one user of a batch. -/
def answeredRows : Option UserRows :=
  (directoryAnswer sources (validIds ids)).bind fun directoryRows =>
    (localPartOf id).map fun localPart =>
      rowsWith config sources viewer directoryRows id localPart

/-- What is told of a user without any local row. -/
def ownRecord : UserInformation :=
  let rows := withoutLocal
    (sources.rows config viewer id ((localPartOf id).getD ""))
  gathered (shows config viewer id rows) id rows

/-- A user of another server is told of without any local row. -/
def LocalDataKept : Prop :=
  Foreign config id → ∀ result,
    getBatch config sources ids viewer = some result →
    ∀ info, result.lookup id = some info →
      info = ownRecord config sources viewer id

end Foreign

section Iff

variable {config : Config} {sources : Sources} {ids : List String}
variable {viewer : Option String} {id : String}

theorem lookup_answeredRows (h : id ∈ ids)
    {result : List (String × UserInformation)}
    (answered : getBatch config sources ids viewer = some result) :
    result.lookup id = (answeredRows config sources ids viewer id).bind
      (mergeUser config viewer id) := by
  unfold answeredRows
  rcases lookup_getBatch h answered with
    ⟨hnone, hlookup⟩ | ⟨directoryRows, hdirectory, hlookup⟩
  · rw [hlookup, hnone]
    cases directoryAnswer sources (validIds ids) <;> rfl
  · rw [hlookup, hdirectory, recordWith]
    cases localPartOf id <;> rfl

theorem answered_of_answeredRows {rows : UserRows} (h : id ∈ ids)
    (found : answeredRows config sources ids viewer id = some rows) :
    ∃ result, getBatch config sources ids viewer = some result := by
  obtain ⟨directoryRows, hdirectory, hrows⟩ := Option.bind_eq_some_iff.mp found
  obtain ⟨localPart, hlocalPart, _⟩ := Option.map_eq_some_iff.mp hrows
  have hnonempty : validIds ids ≠ [] :=
    List.ne_nil_of_mem (mem_validIds.mpr ⟨h, hlocalPart⟩)
  rw [getBatch_eq, if_neg hnonempty, hdirectory]
  exact ⟨_, rfl⟩

theorem ownRecord_of_answeredRows {rows : UserRows}
    (found : answeredRows config sources ids viewer id = some rows) :
    ownRecord config sources viewer id =
      gathered (shows config viewer id rows) id (withoutLocal rows) := by
  obtain ⟨directoryRows, _, hrows⟩ := Option.bind_eq_some_iff.mp found
  obtain ⟨localPart, hlocalPart, rfl⟩ := Option.map_eq_some_iff.mp hrows
  rw [ownRecord, hlocalPart]
  rfl

theorem gathered_empty {visible : ProfileField → Bool} {rows : UserRows}
    (h : gathered visible id rows = { uid := id }) :
    Covered visible rows := by
  rw [gathered_eq] at h
  simp only [UserInformation.mk.injEq, true_and] at h
  obtain ⟨hdisplayName, havatar, hsn, -, hgiven, -, hemails, hphones, -, -,
    hwork⟩ := h
  refine ⟨.inl ?_, (replaced_eq_none havatar).1, fun hthere => ?_,
    .inl (replaced_eq_none hgiven).2, fun hthere hvisible => ?_,
    fun hthere hvisible => ?_, (replaced_eq_none hwork).1⟩
  · exact (replaced_eq_none (replaced_eq_none hdisplayName).2).2
  · rw [(replaced_eq_none (replaced_eq_none hsn).2).1] at hthere
    cases hthere
  · rw [shown_eq_none hemails hthere] at hvisible
    cases hvisible
  · rw [shown_eq_none hphones hthere] at hvisible
    cases hvisible

end Iff

/-! Alice of another server, for whom nothing is known but the entry of the
local Alice. -/

end TwakeKickstart.TomServer.UserInfo
