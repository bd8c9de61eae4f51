import Mathlib.Data.List.Induction
import Mathlib.Data.List.Nodup
import TwakeKickstart.IdentityServer.Cron.ChangePepper
import TwakeKickstart.IdentityServer.Lookup.HashPool

namespace TwakeKickstart.IdentityServer

open Library Utils

/-! The reduction of the directory: the last row with a `uid` is the one that
is hashed. -/

namespace UpdatableFields

theorem mem_put {data : UpdatableFields} (distinct : (data.map Prod.fst).Nodup)
    (key : String) (value : ValueField) (entry : String × ValueField) :
    entry ∈ data.put key value ↔
      entry = (key, value) ∨ entry.1 ≠ key ∧ entry ∈ data := by
  induction data with
  | nil => simp [put]
  | cons head rest ih =>
      obtain ⟨other, old⟩ := head
      rw [List.map_cons, List.nodup_cons] at distinct
      unfold put
      split
      · rename_i hsame
        subst hsame
        simp only [List.mem_cons]
        constructor
        · rintro (hnew | hrest)
          · exact .inl hnew
          · refine .inr ⟨?_, .inr hrest⟩
            intro hkey
            exact distinct.1 (List.mem_map.mpr ⟨entry, hrest, hkey⟩)
        · rintro (hnew | ⟨hkey, hhead | hrest⟩)
          · exact .inl hnew
          · rw [hhead] at hkey
            exact absurd rfl hkey
          · exact .inr hrest
      · rename_i hother
        rw [List.mem_cons, ih distinct.2, List.mem_cons]
        constructor
        · rintro (hhead | hnew | ⟨hkey, hrest⟩)
          · rw [hhead]
            exact .inr ⟨hother, .inl rfl⟩
          · exact .inl hnew
          · exact .inr ⟨hkey, .inr hrest⟩
        · rintro (hnew | ⟨hkey, hhead | hrest⟩)
          · exact .inr (.inl hnew)
          · exact .inl hhead
          · exact .inr (.inr ⟨hkey, hrest⟩)

theorem nodup_put {data : UpdatableFields}
    (distinct : (data.map Prod.fst).Nodup) (key : String)
    (value : ValueField) : ((data.put key value).map Prod.fst).Nodup := by
  induction data with
  | nil => simp [put]
  | cons head rest ih =>
      obtain ⟨other, old⟩ := head
      have hhead := distinct
      rw [List.map_cons, List.nodup_cons] at hhead
      unfold put
      split
      · rename_i hsame
        rw [← hsame]
        exact distinct
      · rename_i hother
        rw [List.map_cons, List.nodup_cons]
        refine ⟨?_, ih hhead.2⟩
        intro h
        obtain ⟨entry, hentry, hkey⟩ := List.mem_map.mp h
        rcases (mem_put hhead.2 key value entry).mp hentry with
          hnew | ⟨_, hrest⟩
        · rw [hnew] at hkey
          exact hother hkey.symm
        · exact hhead.1 (hkey ▸ List.mem_map_of_mem hrest)

end UpdatableFields

def lastWith (rows : List UserRow) (uid : Option String) : Option UserRow :=
  rows.reverse.find? fun row => row.uid == uid

/-- The row is the one that is hashed for its `uid`. -/
def Survives (rows : List UserRow) (row : UserRow) : Prop :=
  lastWith rows row.uid = some row

def ValidUid (conf : Config) (row : UserRow) : Prop :=
  ∃ mxid, toMatrixId row.uid conf.serverName = .ok mxid

variable {conf : Config} {rows : List UserRow} {data : UpdatableFields}

theorem lastWith_append (rows : List UserRow) (row : UserRow)
    (uid : Option String) :
    lastWith (rows ++ [row]) uid =
      if row.uid = uid then some row else lastWith rows uid := by
  unfold lastWith
  rw [List.reverse_append, List.reverse_singleton, List.singleton_append,
    List.find?_cons]
  by_cases h : row.uid = uid
  · rw [if_pos h, beq_iff_eq.mpr h]
  · rw [if_neg h, beq_false_of_ne h]

theorem mem_of_lastWith {uid : Option String} {row : UserRow}
    (h : lastWith rows uid = some row) : row ∈ rows ∧ row.uid = uid := by
  have hmem := List.mem_of_find?_eq_some h
  have huid := List.find?_some h
  exact ⟨List.mem_reverse.mp hmem, by simpa using huid⟩

theorem exists_lastWith {row : UserRow} (h : row ∈ rows) :
    ∃ last, lastWith rows row.uid = some last ∧ last.uid = row.uid := by
  cases hlast : lastWith rows row.uid with
  | none =>
      have hnone := List.find?_eq_none.mp hlast row (List.mem_reverse.mpr h)
      simp at hnone
  | some last => exact ⟨last, rfl, (mem_of_lastWith hlast).2⟩

theorem survives_of_lastWith {uid : Option String} {row : UserRow}
    (h : lastWith rows uid = some row) : Survives rows row := by
  have huid := (mem_of_lastWith h).2
  rw [Survives, huid]
  exact h

theorem survives_append {last row : UserRow} :
    Survives (rows ++ [last]) row ↔
      row = last ∨ row.uid ≠ last.uid ∧ Survives rows row := by
  unfold Survives
  rw [lastWith_append]
  by_cases h : last.uid = row.uid
  · rw [if_pos h, Option.some.injEq]
    constructor
    · exact fun hsame => .inl hsame.symm
    · rintro (hsame | ⟨hother, _⟩)
      · exact hsame.symm
      · exact absurd h.symm hother
  · rw [if_neg h]
    constructor
    · exact fun hrow => .inr ⟨fun hsame => h hsame.symm, hrow⟩
    · rintro (hsame | ⟨_, hrow⟩)
      · exact absurd (by rw [hsame]) h
      · exact hrow

theorem usersData_append (rows : List UserRow) (row : UserRow) :
    usersData conf (rows ++ [row]) =
      (usersData conf rows).bind fun data => addUser conf data row := by
  unfold usersData
  rw [List.foldlM_append]
  cases rows.foldlM (addUser conf) [] with
  | error error => rfl
  | ok data =>
      change (addUser conf data row >>= fun data => pure data) = _
      rw [bind_pure]
      rfl

theorem addUser_ok {row : UserRow} {added : UpdatableFields} :
    addUser conf data row = .ok added ↔
      ∃ mxid, toMatrixId row.uid conf.serverName = .ok mxid ∧
        added = data.put mxid (userFields conf row) := by
  unfold addUser
  cases toMatrixId row.uid conf.serverName with
  | error error => simp [Except.map]
  | ok mxid =>
      simp only [Except.map, Except.ok.injEq, exists_eq_left']
      exact eq_comm

theorem usersData_append_ok {row : UserRow} {added : UpdatableFields} :
    usersData conf (rows ++ [row]) = .ok added ↔
      ∃ data mxid, usersData conf rows = .ok data ∧
        toMatrixId row.uid conf.serverName = .ok mxid ∧
        added = data.put mxid (userFields conf row) := by
  rw [usersData_append]
  cases usersData conf rows with
  | error error => simp [Except.bind]
  | ok data =>
      simp only [Except.bind, addUser_ok, Except.ok.injEq, exists_and_left,
        exists_eq_left']

theorem usersData_ok_iff (conf : Config) (rows : List UserRow) :
    (∃ data, usersData conf rows = .ok data) ↔
      ∀ row ∈ rows, ValidUid conf row := by
  induction rows using List.reverseRecOn with
  | nil => exact ⟨fun _ _ h => absurd h (by simp), fun _ => ⟨[], rfl⟩⟩
  | append_singleton rows row ih =>
      constructor
      · rintro ⟨added, hadded⟩
        obtain ⟨data, mxid, hdata, hmxid, _⟩ := usersData_append_ok.mp hadded
        intro other hother
        rcases List.mem_append.mp hother with hbefore | hlast
        · exact ih.mp ⟨data, hdata⟩ other hbefore
        · rw [List.mem_singleton.mp hlast]
          exact ⟨mxid, hmxid⟩
      · intro hvalid
        obtain ⟨data, hdata⟩ := ih.mpr fun other hother =>
          hvalid other (List.mem_append_left _ hother)
        obtain ⟨mxid, hmxid⟩ := hvalid row (by simp)
        exact ⟨_, usersData_append_ok.mpr ⟨data, mxid, hdata, hmxid, rfl⟩⟩

theorem usersData_nodup (h : usersData conf rows = .ok data) :
    (data.map Prod.fst).Nodup := by
  induction rows using List.reverseRecOn generalizing data with
  | nil =>
      cases h
      exact List.nodup_nil
  | append_singleton rows row ih =>
      obtain ⟨before, mxid, hbefore, _, rfl⟩ := usersData_append_ok.mp h
      exact UpdatableFields.nodup_put (ih hbefore) _ _

theorem mem_usersData (h : usersData conf rows = .ok data)
    (entry : String × ValueField) :
    entry ∈ data ↔ ∃ row, Survives rows row ∧
      toMatrixId row.uid conf.serverName = .ok entry.1 ∧
      entry.2 = userFields conf row := by
  induction rows using List.reverseRecOn generalizing data with
  | nil =>
      cases h
      constructor
      · exact fun hmem => absurd hmem (by simp)
      · rintro ⟨row, hrow, _⟩
        cases hrow
  | append_singleton rows last ih =>
      obtain ⟨before, mxid, hbefore, hmxid, rfl⟩ := usersData_append_ok.mp h
      rw [UpdatableFields.mem_put (usersData_nodup hbefore), ih hbefore]
      constructor
      · rintro (hnew | ⟨hkey, row, hrow, hid, hfields⟩)
        · rw [hnew]
          exact ⟨last, survives_append.mpr (.inl rfl), hmxid, rfl⟩
        · refine ⟨row, survives_append.mpr (.inr ⟨?_, hrow⟩), hid, hfields⟩
          intro hsame
          rw [hsame, hmxid] at hid
          exact hkey (Except.ok.inj hid).symm
      · rintro ⟨row, hrow, hid, hfields⟩
        rcases survives_append.mp hrow with hsame | ⟨hother, hsurvives⟩
        · rw [hsame, hmxid] at hid
          rw [hsame] at hfields
          exact .inl (Prod.ext (Except.ok.inj hid).symm hfields)
        · refine .inr ⟨?_, row, hsurvives, hid, hfields⟩
          intro hkey
          rw [hkey] at hid
          exact hother (toMatrixId_injective hid hmxid)

theorem localPart_of_cons {name : String} {rest : List Char}
    (h : name.toList = '@' :: rest) :
    localPart name =
      if ':' ∈ rest ∧ rest.all (!isLineTerminator ·) then
        String.ofList (rest.takeWhile (· != ':'))
      else name := by
  simp only [localPart, h]

theorem localPart_of_toMatrixId {uid : Option String}
    {serverName mxid : String} (h : toMatrixId uid serverName = .ok mxid) :
    uid = some (localPart mxid) := by
  obtain ⟨name, rfl, hmxid⟩ := toMatrixId_ok h
  obtain ⟨hname, hserver⟩ := toMatrixId_valid h
  have hmatched := Regex.matches_of_test hname
  have hcolon : ':' ∉ name.toList :=
    Regex.not_mem_of_rejects hmatched (by decide)
  have hline : ∀ c ∈ name.toList ++ ':' :: serverName.toList,
      isLineTerminator c = false := by
    intro c hc
    cases hbreaks : isLineTerminator c with
    | false => rfl
    | true =>
        rcases List.mem_append.mp hc with hlocal | hrest
        · refine absurd hlocal (Regex.not_mem_of_rejects hmatched ?_)
          simp only [isLineTerminator, Bool.or_eq_true, beq_iff_eq] at hbreaks
          rcases hbreaks with ((rfl | rfl) | rfl) | rfl
          · decide
          · decide
          · decide
          · decide
        · rcases List.mem_cons.mp hrest with rfl | hdomain
          · exact absurd hbreaks (by decide)
          · exact absurd hdomain (not_mem_of_validServerName
              (serverNameRegexes_reject hbreaks) hserver)
  have hlist : mxid.toList =
      '@' :: (name.toList ++ ':' :: serverName.toList) := by
    rw [hmxid]
    simp [String.toList_append]
  rw [localPart_of_cons hlist, if_pos]
  · have hother : ∀ c ∈ name.toList, (c != ':') = true := by
      intro c hc
      simpa using fun hsame : c = ':' => hcolon (hsame ▸ hc)
    rw [List.takeWhile_append_of_pos hother,
      List.takeWhile_cons_of_neg (by decide), List.append_nil,
      String.ofList_toList]
  · refine ⟨by simp, ?_⟩
    rw [List.all_eq_true]
    intro c hc
    rw [hline c hc]
    rfl

/-! What is inserted for one user, and for all of them. -/

def userParams (mxid : String) (fields : ValueField) : List UpdateArgs :=
  fieldsToHash.flatMap (fieldParams mxid fields)

/-- The insertions for the addresses of one row. -/
def userArgs (conf : Config) (row : UserRow) : List UpdateArgs :=
  match toMatrixId row.uid conf.serverName with
  | .error _ => []
  | .ok mxid => userParams mxid (userFields conf row)

theorem mem_userArgs {row : UserRow} {args : UpdateArgs} :
    args ∈ userArgs conf row ↔ ∃ mxid,
      toMatrixId row.uid conf.serverName = .ok mxid ∧
      args ∈ userParams mxid (userFields conf row) := by
  unfold userArgs
  cases toMatrixId row.uid conf.serverName with
  | error error => simp
  | ok mxid => simp

theorem address_of_mem {mxid : String} {fields : ValueField}
    {args : UpdateArgs} (h : args ∈ userParams mxid fields) :
    args.matrixAddress = mxid := by
  obtain ⟨field, _, hargs⟩ := List.mem_flatMap.mp h
  unfold fieldParams at hargs
  split at hargs
  · cases hargs
  · split at hargs
    · cases hargs
    · obtain ⟨method, _, rfl⟩ := List.mem_map.mp hargs
      rfl

theorem mem_updateParams (h : usersData conf rows = .ok data)
    (args : UpdateArgs) :
    args ∈ updateParams data ↔
      ∃ row, Survives rows row ∧ args ∈ userArgs conf row := by
  unfold updateParams
  rw [List.mem_flatMap]
  constructor
  · rintro ⟨entry, hentry, hargs⟩
    obtain ⟨row, hrow, hid, hfields⟩ := (mem_usersData h entry).mp hentry
    refine ⟨row, hrow, mem_userArgs.mpr ⟨entry.1, hid, ?_⟩⟩
    rw [← hfields]
    exact hargs
  · rintro ⟨row, hrow, hargs⟩
    obtain ⟨mxid, hid, hparams⟩ := mem_userArgs.mp hargs
    exact ⟨(mxid, userFields conf row),
      (mem_usersData h _).mpr ⟨row, hrow, hid, rfl⟩, hparams⟩

theorem nodup_userParams (mxid : String) (fields : ValueField) :
    (userParams mxid fields).Nodup := by
  have hphone : ∀ field, (fieldParams mxid fields field).Nodup ∧
      ∀ args ∈ fieldParams mxid fields field, args.field = field := by
    intro field
    unfold fieldParams
    split
    · simp
    · split
      · simp
      · simp [supportedHashes]
  simp only [userParams, fieldsToHash, List.flatMap_cons, List.flatMap_nil,
    List.append_nil]
  refine List.Nodup.append (hphone .phone).1 (hphone .email).1 ?_
  intro args hfirst hsecond
  have hfield := ((hphone .phone).2 args hfirst).symm.trans
    ((hphone .email).2 args hsecond)
  cases hfield

theorem nodup_updateParams (distinct : (data.map Prod.fst).Nodup) :
    (updateParams data).Nodup := by
  induction data with
  | nil => exact List.nodup_nil
  | cons head rest ih =>
      rw [List.map_cons, List.nodup_cons] at distinct
      change (userParams head.1 head.2 ++ updateParams rest).Nodup
      refine List.Nodup.append (nodup_userParams _ _) (ih distinct.2) ?_
      intro args hfirst hsecond
      obtain ⟨entry, hentry, hargs⟩ := List.mem_flatMap.mp hsecond
      have hkey : entry.1 = head.1 :=
        (address_of_mem hargs).symm.trans (address_of_mem hfirst)
      exact distinct.1 (hkey ▸ List.mem_map_of_mem hentry)

/-! The addresses of a user. -/

def UserRow.address (user : UserRow) : Field → Option String
  | .phone => user.mobile
  | .email => user.mail

/-- The user has the address, and it is hashed. -/
def UserRow.Has (user : UserRow) (field : Field) (value : String) : Prop :=
  user.address field = some value ∧ value ≠ ""

def addressText (pepper : String) (field : Field) (value : String) : String :=
  hashedText (field.format value) field.word pepper

/-- The row that an address of a user has under a pepper. -/
def addressRow (env : Environment) (pepper mxid : String)
    (active : Option Int) (field : Field) (value : String) : HashRow where
  hash := env.sha256 (addressText pepper field value)
  pepper := pepper
  type := field.word
  value := mxid
  active := active

section Addresses

variable {user : UserRow} {args : UpdateArgs} {mxid : String}
variable {field kind : Field} {value same : String}

def addressArgs (mxid : String) (active : Option Int) (field : Field)
    (value : String) : UpdateArgs where
  matrixAddress := mxid
  method := .sha256
  field := field
  value := value
  active := active

@[simp] theorem row_addressArgs (env : Environment) (pepper mxid : String)
    (active : Option Int) (field : Field) (value : String) :
    (addressArgs mxid active field value).row env pepper =
      addressRow env pepper mxid active field value := rfl

@[simp] theorem digest_addressArgs (env : Environment) (pepper mxid : String)
    (active : Option Int) (field : Field) (value : String) :
    (addressArgs mxid active field value).digest env pepper =
      env.sha256 (addressText pepper field value) := rfl

theorem mem_fieldParams {fields : ValueField} :
    args ∈ fieldParams mxid fields field ↔
      ∃ value, fields.value field = some value ∧ value ≠ "" ∧
        args = addressArgs mxid fields.active field value := by
  unfold fieldParams
  split
  · rename_i hnone
    simp [hnone]
  · rename_i value hvalue
    split
    · rename_i hempty
      simp [hvalue, hempty]
    · rename_i hnamed
      simp [hvalue, hnamed, supportedHashes, addressArgs]

theorem mem_userArgs_iff :
    args ∈ userArgs conf user ↔ ∃ mxid field value,
      toMatrixId user.uid conf.serverName = .ok mxid ∧
      user.Has field value ∧
      args = addressArgs mxid (userFields conf user).active field value := by
  have hvalue : ∀ field, (userFields conf user).value field =
      user.address field := by
    intro field
    cases field with
    | phone => rfl
    | email => rfl
  have hall : ∀ field : Field, field ∈ fieldsToHash := by
    intro field
    cases field with
    | phone => exact List.mem_cons_self
    | email => exact List.mem_cons_of_mem _ List.mem_cons_self
  rw [mem_userArgs]
  constructor
  · rintro ⟨mxid, hmxid, hparams⟩
    obtain ⟨field, _, hargs⟩ := List.mem_flatMap.mp hparams
    obtain ⟨value, hsome, hnamed, rfl⟩ := mem_fieldParams.mp hargs
    rw [hvalue] at hsome
    exact ⟨mxid, field, value, hmxid, ⟨hsome, hnamed⟩, rfl⟩
  · rintro ⟨mxid, field, value, hmxid, ⟨hsome, hnamed⟩, rfl⟩
    refine ⟨mxid, hmxid, List.mem_flatMap.mpr ⟨field, hall field, ?_⟩⟩
    rw [← hvalue] at hsome
    exact mem_fieldParams.mpr ⟨value, hsome, hnamed, rfl⟩

theorem addressText_injective {pepper : String}
    (h : addressText pepper field value = addressText pepper kind same) :
    field = kind ∧ field.format value = kind.format same := by
  simp only [addressText, hashedText, String.append_left_inj] at h
  have hlast := congrArg (fun text : String => text.toList.getLast?) h
  cases field with
  | phone =>
      cases kind with
      | phone =>
          refine ⟨rfl, ?_⟩
          simpa only [String.append_left_inj] using h
      | email => simp [Field.word, String.toList_append] at hlast
  | email =>
      cases kind with
      | phone => simp [Field.word, String.toList_append] at hlast
      | email =>
          refine ⟨rfl, ?_⟩
          simpa only [String.append_left_inj] using h

end Addresses

end TwakeKickstart.IdentityServer
