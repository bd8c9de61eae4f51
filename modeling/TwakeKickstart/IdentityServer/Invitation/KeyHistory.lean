import TwakeKickstart.IdentityServer.Invitation.SigningKey

namespace TwakeKickstart.IdentityServer.Invitation

/-! The current and the previous long-term key over the calls of
`createKeypair`. -/

/-- What `getKeys` is asked for. -/
inductive KeyRole where
  | current
  | previous

def KeyRole.name : KeyRole → String
  | current => "currentKey"
  | previous => "previousKey"

/-- How many long-term key pairs have been made since. -/
def KeyRole.age : KeyRole → Nat
  | current => 0
  | previous => 1

def KeyRole.missing (role : KeyRole) : String := "No " ++ role.name ++ " found"

/-- What `getKeys` gives. -/
structure GivenKeys where
  keyId : Option String
  publicKey : String
  privateKey : String
  deriving DecidableEq

def KeyPair.given (keyPair : KeyPair) : GivenKeys :=
  ⟨some keyPair.keyId, keyPair.publicKey, keyPair.privateKey⟩

/-- PostgreSQL gives the column `keyID` back as `keyid`. -/
def readKeys : SupportedDatabases → LongTermRow → GivenKeys
  | .sqlite, row => row.given
  | .pg, row => { row.given with keyId := none }

/-- `getKeys`, on the rows in the order in which the database returns them. -/
def getKeysOf (engine : SupportedDatabases) (role : KeyRole) :
    List LongTermRow → Except String GivenKeys
  | [] => .error role.missing
  | row :: _ => .ok (readKeys engine row)

/-- A call of `createKeypair`. -/
structure Creation where
  type : KeyType
  algorithm : Algorithm
  drawn : Drawn

namespace Creation

def keyPair (creation : Creation) : KeyPair :=
  generateKeyPair creation.algorithm creation.drawn

/-- The key pair, when it is a long-term one. -/
def longTerm (creation : Creation) : Option KeyPair :=
  match creation.type with
  | .longTerm => some creation.keyPair
  | .shortTerm => none

end Creation

def createAll (creations : List Creation) (tables : KeyTables) : KeyTables :=
  creations.foldl (fun tables creation =>
    (createKeypair creation.type creation.algorithm creation.drawn tables).1)
    tables

/-- The long-term key pairs, the last one first. -/
def made (creations : List Creation) : List KeyPair :=
  (creations.filterMap Creation.longTerm).reverse

def noKeys : KeyTables := ⟨[], []⟩

/-- The long-term key pair of an age; a role that no key pair has is refused. -/
def KeyRole.expected (role : KeyRole) (pairs : List KeyPair) :
    Except String GivenKeys :=
  match pairs[role.age]? with
  | some keyPair => .ok keyPair.given
  | none => .error role.missing

/-- The table holds the last two long-term key pairs, and `getKeys` gives the
last one as the current and the other as the previous, whatever the order of
the rows. -/
structure HistoryHolds (engine : SupportedDatabases)
    (creations : List Creation) : Prop where
  stored : (createAll creations noKeys).longTerm.map LongTermRow.toKeyPair =
    ((made creations).take 2).reverse
  given : ∀ rows, rows.Perm (createAll creations noKeys).longTerm →
    ∀ role, getKeysOf engine role rows = role.expected (made creations)

/-- The row of the key pair that was current before. -/
def former (keyPair : KeyPair) : LongTermRow :=
  { keyPair with name := "previousKey" }

/-- The rows after the creation of these key pairs. -/
def historyRows : List KeyPair → List LongTermRow
  | [] => []
  | [last] => [current last]
  | last :: other :: _ => [former other, current last]

theorem rotated_history (keyPair : KeyPair) (past : List KeyPair) :
    rotated (historyRows past) ++ [current keyPair] =
      historyRows (keyPair :: past) := by
  rw [rotated_eq]
  match past with
  | [] => rfl
  | [last] => rfl
  | last :: other :: rest => rfl

/-- One creation: a long-term key pair joins the history, a short-term one
leaves it as it is. -/
theorem longTerm_createKeypair (creation : Creation) {tables : KeyTables}
    {past : List KeyPair} (h : tables.longTerm = historyRows past) :
    (createKeypair creation.type creation.algorithm creation.drawn
        tables).1.longTerm =
      historyRows (creation.longTerm.toList ++ past) := by
  unfold Creation.longTerm
  cases creation.type with
  | longTerm =>
      rw [createKeypair_longTerm]
      dsimp only
      rw [h]
      exact rotated_history creation.keyPair past
  | shortTerm =>
      unfold createKeypair
      dsimp only
      split
      · exact h
      · exact h

theorem longTerm_createAll (creations : List Creation) {tables : KeyTables}
    {past : List KeyPair} (h : tables.longTerm = historyRows past) :
    (createAll creations tables).longTerm =
      historyRows (made creations ++ past) := by
  induction creations generalizing tables past with
  | nil => exact h
  | cons creation rest ih =>
      have hrest := ih (longTerm_createKeypair creation h)
      rw [createAll, List.foldl_cons]
      refine hrest.trans ?_
      rw [← List.append_assoc]
      unfold made
      congr 2
      rw [List.filterMap_cons]
      cases creation.longTerm with
      | none => exact List.append_nil _
      | some keyPair => exact List.reverse_cons.symm

theorem longTerm_made (creations : List Creation) :
    (createAll creations noKeys).longTerm = historyRows (made creations) := by
  have h := @longTerm_createAll creations noKeys [] rfl
  rwa [List.append_nil] at h

theorem stored_history (past : List KeyPair) :
    (historyRows past).map LongTermRow.toKeyPair = (past.take 2).reverse := by
  match past with
  | [] => rfl
  | [last] => rfl
  | last :: other :: rest => rfl

theorem getKeysOf_perm {rows stored : List LongTermRow} {keyPair : KeyPair}
    (role : KeyRole) (perm : rows.Perm stored) (some : stored ≠ [])
    (alike : ∀ row ∈ stored, row.toKeyPair = keyPair) :
    getKeysOf .sqlite role rows = .ok keyPair.given := by
  cases rows with
  | nil => exact absurd perm.symm.eq_nil some
  | cons row rest =>
      have hrow := alike row (perm.subset List.mem_cons_self)
      rw [getKeysOf, readKeys, hrow]

theorem given_injective {keyPair other : KeyPair}
    (h : keyPair.given = other.given) : keyPair = other := by
  cases keyPair
  cases other
  cases h
  rfl

theorem getKeysOf_pg (role : KeyRole) (rows : List LongTermRow)
    (keyPair : KeyPair) :
    getKeysOf .pg role rows ≠ .ok keyPair.given := by
  cases rows with
  | nil => exact nofun
  | cons row rest => exact nofun

/-- With rows in the table, both roles get the same answer. -/
theorem getKeysOf_role {engine : SupportedDatabases} {rows : List LongTermRow}
    (some : rows ≠ []) :
    getKeysOf engine .current rows = getKeysOf engine .previous rows := by
  cases rows with
  | nil => exact absurd rfl some
  | cons row rest => rfl

/-- The keys are told apart just as long as there are none, or SQLite stores
them and the last long-term key pair has been made twice in a row. -/
theorem historyHolds_iff (engine : SupportedDatabases)
    (creations : List Creation) :
    HistoryHolds engine creations ↔
      made creations = [] ∨ engine = .sqlite ∧ ∃ keyPair older,
        made creations = keyPair :: keyPair :: older := by
  have hstored := longTerm_made creations
  constructor
  · intro holds
    have hgiven := holds.given _ (.refl _)
    rw [hstored] at hgiven
    cases hmade : made creations with
    | nil => exact .inl rfl
    | cons newest rest =>
        refine .inr ?_
        rw [hmade] at hgiven
        cases engine with
        | pg => exact absurd (hgiven .current) (getKeysOf_pg .current _ newest)
        | sqlite =>
            refine ⟨rfl, newest, ?_⟩
            cases rest with
            | nil => cases hgiven .previous
            | cons other older =>
                have hsame : (Except.ok newest.given : Except String _) =
                    .ok other.given :=
                  (hgiven .current).symm.trans
                    ((getKeysOf_role (by simp [historyRows])).trans
                      (hgiven .previous))
                rw [given_injective (Except.ok.inj hsame)]
                exact ⟨older, rfl⟩
  · intro told
    constructor
    · rw [hstored, stored_history]
    · intro rows perm role
      rw [hstored] at perm
      rcases told with hnone | ⟨rfl, keyPair, older, htwice⟩
      · rw [hnone] at perm ⊢
        rw [perm.eq_nil]
        cases role with
        | current => rfl
        | previous => rfl
      · rw [htwice] at perm ⊢
        rw [getKeysOf_perm role perm (by simp [historyRows])
          (by simp [historyRows, current, former] : ∀ row ∈ historyRows
            (keyPair :: keyPair :: older), row.toKeyPair = keyPair)]
        cases role with
        | current => rfl
        | previous => rfl

def signingCreation : Creation := ⟨.longTerm, .ed25519, ⟨"A", "pa", "sa"⟩⟩

def ephemeralCreation : Creation := ⟨.longTerm, .curve25519, ⟨"B", "pb", "sb"⟩⟩

/-- After a second long-term key pair the first is given for the current. -/
theorem second_key_hidden :
    ¬ HistoryHolds .sqlite [signingCreation, ephemeralCreation] := by
  rw [historyHolds_iff]
  intro told
  rcases told with hnone | ⟨_, keyPair, older, htwice⟩
  · cases hnone
  · have hlast := (List.cons.inj htwice).1
    have hother := (List.cons.inj (List.cons.inj htwice).2).1
    rw [← hlast] at hother
    revert hother
    decide

end TwakeKickstart.IdentityServer.Invitation
