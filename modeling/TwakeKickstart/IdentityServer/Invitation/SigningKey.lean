import TwakeKickstart.IdentityServer.Invitation.StoreInvit

namespace TwakeKickstart.IdentityServer.Invitation

open Library Utils

/-! Which keys are valid, and what becomes of the key that `bind` signs with as
others are made. -/

/-- The handler behind a validity URL. -/
def answerValidity (conf : Conf) (tables : KeyTables) (key : PublicKey) :
    Option (Nat × JsValue) :=
  if key.keyValidityUrl = pubkeyUrl conf then
    some (isPubkeyValid tables key.publicKey)
  else if key.keyValidityUrl = ephemeralPubkeyUrl conf then
    some (isEphemeralPubkeyValid tables key.publicKey)
  else none

def ReportedValid (conf : Conf) (tables : KeyTables) (key : PublicKey) :
    Prop :=
  answerValidity conf tables key =
    some (200, .obj [("valid", .bool true)])

section Rows

variable {Row : Type} {cell : Row → String → Cell} {rows : List Row}

theorem getRows_str (cell : Row → String → Cell) (fields : List String)
    (column : String) {value : String} (named : value ≠ "")
    (rows : List Row) :
    getRows cell fields [(column, .str value)] rows =
      some (rows.filter fun row => Operator.eq.test (cell row column) value)
    := by
  rcases getStatement_spec fields [(column, .str value)] with
    ⟨hnone, _⟩ | ⟨resolved, statement, hresolved, hstatement, hselects⟩
  · rw [resolve_cons_str, if_neg named] at hnone
    cases hnone
  · rw [resolve_cons_str, if_neg named] at hresolved
    cases hresolved
    rw [getRows, hstatement, Option.map_some]
    congr 1
    refine List.filter_congr fun row _ => ?_
    rw [hselects]
    simp [selectsAll]

theorem getRows_nil (cell : Row → String → Cell) (fields : List String)
    (rows : List Row) : getRows cell fields [] rows = some rows := by
  rcases getStatement_spec fields [] with
    ⟨hnone, _⟩ | ⟨resolved, statement, hresolved, hstatement, hselects⟩
  · cases hnone
  · cases hresolved
    rw [getRows, hstatement, Option.map_some]
    congr 1
    refine List.filter_eq_self.mpr fun row _ => ?_
    rw [hselects]
    rfl

theorem isKeyValid_eq (cell : Row → String → Cell)
    {text : Row → String} (hcell : ∀ row, cell row "public" = .text (text row))
    (rows : List Row) {publicKey : String} (named : publicKey ≠ "") :
    isKeyValid cell rows publicKey =
      (200, .obj [("valid", .bool (rows.any (text · == publicKey)))]) := by
  rw [isKeyValid, if_neg named, getRows_str cell _ _ named]
  have hfilter : (rows.filter fun row =>
      Operator.eq.test (cell row "public") publicKey) =
      rows.filter (text · == publicKey) := by
    refine List.filter_congr fun row _ => ?_
    rw [hcell, Bool.eq_iff_iff, Operator.test_eq_text, beq_iff_eq]
  rw [hfilter]
  cases hrows : rows.filter (text · == publicKey) with
  | nil =>
      have hnone : rows.any (text · == publicKey) = false :=
        List.any_eq_false.mpr (List.filter_eq_nil_iff.mp hrows)
      rw [hnone]
  | cons row rest =>
      have hmem : row ∈ rows.filter (text · == publicKey) := by
        rw [hrows]
        exact List.mem_cons_self
      have hsome : rows.any (text · == publicKey) = true :=
        List.any_eq_true.mpr ⟨row, List.mem_filter.mp hmem⟩
      rw [hsome]

end Rows

theorem signingKey_eq (tables : KeyTables) :
    signingKey tables = tables.longTerm.head? := by
  rw [signingKey, getRows_nil]
  rfl

theorem isNamed_iff {name : String} {row : LongTermRow} :
    isNamed name row = true ↔ row.name = name :=
  Cell.same_text row.name name

theorem found_named {name : String} (named : name ≠ "")
    (rows : List LongTermRow) :
    found (getRows LongTermRow.cell ["name"] [("name", .str name)] rows) =
      rows.any (·.name == name) := by
  rw [getRows_str _ _ _ named, found, Option.any_some, Bool.eq_iff_iff]
  simp only [Bool.not_eq_true', List.isEmpty_eq_false_iff, ne_eq,
    List.filter_eq_nil_iff, LongTermRow.cell, Operator.test_eq_text,
    List.any_eq_true, beq_iff_eq]
  simp

/-- The current row takes the other name. -/
def retired (row : LongTermRow) : LongTermRow :=
  if row.name = "currentKey" then { row with name := "previousKey" } else row

theorem rotated_eq (rows : List LongTermRow) :
    rotated rows =
      if rows.any (·.name == "currentKey") then
        (rows.filter (·.name != "previousKey")).map retired
      else rows := by
  rw [rotated, found_named (by decide), found_named (by decide)]
  have hfilter : (rows.filter fun row => !isNamed "previousKey" row) =
      rows.filter (·.name != "previousKey") := by
    refine List.filter_congr fun row _ => ?_
    rw [bne, Bool.eq_iff_iff, Bool.not_eq_true', Bool.not_eq_true',
      ← Bool.not_eq_true, ← Bool.not_eq_true, isNamed_iff, beq_iff_eq]
  have hmap : (fun row => if isNamed "currentKey" row = true then
      { row with name := "previousKey" } else row) = retired := by
    funext row
    rw [retired]
    simp only [isNamed_iff]
  split
  · dsimp only
    rw [hfilter, hmap]
    split
    · rfl
    · rename_i hnone
      congr 1
      symm
      refine List.filter_eq_self.mpr fun row hrow => ?_
      rw [bne_iff_ne]
      rintro hname
      exact hnone (List.any_eq_true.mpr ⟨row, hrow, beq_iff_eq.mpr hname⟩)
  · rfl

theorem current_free (rows : List LongTermRow) :
    "currentKey" ∉ (rotated rows).map LongTermRow.name := by
  rw [rotated_eq]
  split
  · rw [List.map_map, List.mem_map]
    rintro ⟨row, _, hname⟩
    rw [Function.comp_apply, retired] at hname
    split at hname
    · simp at hname
    · rename_i hother
      exact hother hname
  · rename_i hnone
    rw [List.mem_map]
    rintro ⟨row, hrow, hname⟩
    exact hnone (List.any_eq_true.mpr ⟨row, hrow, beq_iff_eq.mpr hname⟩)

/-- The row of a new key pair. -/
def current (keyPair : KeyPair) : LongTermRow :=
  { keyPair with name := "currentKey" }

theorem createKeypair_longTerm (algorithm : Algorithm) (drawn : Drawn)
    (tables : KeyTables) :
    createKeypair .longTerm algorithm drawn tables =
      ({ tables with longTerm := rotated tables.longTerm ++
          [current (generateKeyPair algorithm drawn)] },
        some (generateKeyPair algorithm drawn)) := by
  have hfree : ((rotated tables.longTerm).map LongTermRow.name).contains
      "currentKey" = false := by
    rw [← Bool.not_eq_true, List.contains_iff_mem]
    exact current_free _
  simp only [createKeypair, hfree, Bool.false_eq_true, if_false]
  rfl

section Validity

variable {conf : Conf} {tables : KeyTables}

theorem ephemeralPubkeyUrl_ne (conf : Conf) :
    ephemeralPubkeyUrl conf ≠ pubkeyUrl conf := by
  unfold ephemeralPubkeyUrl pubkeyUrl
  rw [ne_eq, String.append_right_inj]
  decide

/-- What is handed out for the ephemeral URL is a private key, which no row of
that table has. -/
theorem not_reportedValid {key : String}
    (fresh : ∀ row ∈ tables.shortTerm, row.publicKey ≠ key) :
    ¬ ReportedValid conf tables ⟨ephemeralPubkeyUrl conf, key⟩ := by
  rw [ReportedValid, answerValidity, if_neg (ephemeralPubkeyUrl_ne conf),
    if_pos rfl, Option.some.injEq]
  intro hvalid
  unfold isEphemeralPubkeyValid at hvalid
  by_cases hnamed : key = ""
  · rw [isKeyValid, if_pos hnamed] at hvalid
    cases hvalid
  · rw [@isKeyValid_eq KeyPair KeyPair.cell KeyPair.publicKey (fun _ => rfl)
      _ _ hnamed] at hvalid
    have hnone : tables.shortTerm.any (·.publicKey == key) = false := by
      refine List.any_eq_false.mpr fun row hrow => ?_
      rw [beq_iff_eq]
      exact fresh row hrow
    rw [hnone] at hvalid
    cases hvalid

end Validity

/-! The key that `bind` signs with, once the one made for signing is the only
one: it lasts for one call and is deleted by the next. -/

/-- The table after so many key pairs have been made beside the first. -/
inductive Stage (signing : KeyPair) : Nat → List LongTermRow → Prop where
  | alone : Stage signing 0 [current signing]
  | beside {first : KeyPair} (other : first ≠ signing) :
      Stage signing 1 [{ signing with name := "previousKey" }, current first]
  | replaced {made : Nat} {former latter : KeyPair}
      (other : former ≠ signing) (another : latter ≠ signing) :
      Stage signing (made + 2)
        [{ former with name := "previousKey" }, current latter]

theorem Stage.renew {signing keyPair : KeyPair} {made : Nat}
    {rows : List LongTermRow} (stage : Stage signing made rows)
    (other : keyPair ≠ signing) :
    Stage signing (made + 1) (rotated rows ++ [current keyPair]) := by
  rw [rotated_eq]
  cases stage with
  | alone => exact .beside other
  | beside first => exact .replaced first other
  | replaced former latter => exact .replaced latter other

theorem Stage.head?_eq_iff {signing : KeyPair} {made : Nat}
    {rows : List LongTermRow} (stage : Stage signing made rows) :
    rows.head?.map LongTermRow.toKeyPair = some signing ↔ made ≤ 1 := by
  cases stage with
  | alone => simp [current]
  | beside first => simp
  | replaced former latter =>
      simp only [List.head?_cons, Option.map_some, Option.some.injEq]
      exact iff_of_false former (by omega)

def signingPair : KeyPair :=
  generateKeyPair .ed25519 ⟨"AAAAAAAAAAA", "ed-public", "ed-private"⟩

def signingTables : KeyTables := ⟨[current signingPair], []⟩

end TwakeKickstart.IdentityServer.Invitation
