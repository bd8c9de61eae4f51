import TwakeKickstart.IdentityServer.Cron.RotationProgress

namespace TwakeKickstart.IdentityServer

open Library Utils

/-! Any sequence of rotations, each of which may fail at any operation: which
hashes the published pepper and the one before it still have. -/

def underPepper (store : Store) (pepper : String) : List HashRow :=
  (store .hashes).filter (·.pepper == pepper)

/-- The loop with what an observer remembers: whether the rotation in progress
has deleted old hashes, the rows under the published pepper when it was
published, and those of the pepper that it replaced. -/
structure Audit where
  loop : RotationLoop
  deleted : Bool
  installed : List HashRow
  replaced : List HashRow

namespace Audit

/-- No rotation is in progress, and none has failed. -/
def idle (store : Store) (pepper previous : String) : Audit where
  loop :=
    { vars :=
        { store := Function.update store .keys (keyRows pepper previous),
          newPepper := pepper, previousSet := true, hashed := true,
          published := true },
      pending := [] }
  deleted := false
  installed := underPepper store pepper
  replaced := underPepper store previous

end Audit

def deletes (env : Environment) (loop : RotationLoop) (index : Nat)
    (outcome : Outcome) : Bool :=
  match loop.pending[index]? with
  | some (.deleteOldHashes pepper) =>
      (attempt env outcome.fails
        (.deleteEqual .hashes "pepper" (.str pepper)) loop.vars.store).1.isSome
  | _ => false

def publishes (env : Environment) (loop : RotationLoop) (index : Nat)
    (outcome : Outcome) : Bool :=
  match loop.pending[index]? with
  | some .publish =>
      (attempt env outcome.fails
        (.update .keys (fun key => { key with data := loop.vars.newPepper })
          "name" (.str "pepper")) loop.vars.store).1.isSome
  | _ => false

def observe (env : Environment) (audit : Audit) (after : RotationLoop) :
    RotationEvent → Audit
  | .start _ => { audit with loop := after, deleted := false }
  | .complete index outcome =>
      let deleted := audit.deleted || deletes env audit.loop index outcome
      if publishes env audit.loop index outcome then
        { loop := after, deleted,
          installed := underPepper after.vars.store after.vars.newPepper,
          replaced := audit.installed }
      else { audit with loop := after, deleted }

def auditStep (env : Environment) (conf : Config) (audit : Audit)
    (event : RotationEvent) : Option Audit :=
  (rotationStep env conf audit.loop event).map fun after =>
    observe env audit after event

/-- Between two rotations the published directory is complete, and so is that
of the pepper before. -/
def DirectoryKept (audit : Audit) : Prop :=
  audit.loop.pending = [] →
    (∀ row ∈ audit.installed, row ∈ audit.loop.vars.store .hashes) ∧
    (∀ row ∈ audit.replaced, row ∈ audit.loop.vars.store .hashes)

/-! The runs.  Peppers are random strings: none is drawn twice. -/

def drawsPepper (audit : Audit) : RotationEvent → Bool
  | .start newPepper =>
      newPepper != "" &&
        (audit.loop.vars.store .keys).all (·.data != newPepper)
  | .complete _ _ => true

/-- `previousPepper` is read after it was overwritten, or holds the published
pepper because a failed rotation has overwritten it. -/
def readsPublished (env : Environment) (conf : Config) (loop : RotationLoop)
    (index : Nat) (outcome : Outcome) : Bool :=
  match loop.pending[index]? with
  | some .getPreviousPepper =>
      let issued :=
        (Rotation.react env conf outcome .getPreviousPepper loop.vars).2
      !issued.isEmpty && (loop.vars.previousSet ||
        (loop.vars.store .keys).any fun key =>
          key.name == "pepper" && issued.contains (.deleteOldHashes key.data))
  | _ => false

/-- No deletion is based on the published pepper, and a rotation that has
deleted old hashes does not fail. -/
def rotatesSafely (env : Environment) (conf : Config) (audit : Audit)
    (event : RotationEvent) : Bool :=
  match event with
  | .start _ => true
  | .complete index outcome =>
      !readsPublished env conf audit.loop index outcome &&
        (auditStep env conf audit event).all fun after =>
          !(after.deleted && after.loop.vars.rejected)

def FreshPepper (audit : Audit) (event : RotationEvent) : Prop :=
  drawsPepper audit event = true

def SafeRotation (env : Environment) (conf : Config) (audit : Audit)
    (event : RotationEvent) : Prop :=
  FreshPepper audit event ∧ rotatesSafely env conf audit event = true

/-! The rows of the two directories. -/

variable {env : Environment} {conf : Config} {outcome : Outcome}
variable {pepper previous : String} {audit : Audit} {after : RotationLoop}
variable {operation : RotationOperation} {rest : List RotationOperation}

structure Kept (audit : Audit) (pepper previous : String) : Prop where
  keys : audit.loop.vars.store .keys = keyRows pepper previous
  installed : ∀ row ∈ audit.installed, row ∈ audit.loop.vars.store .hashes
  replaced : audit.deleted = false ∨ audit.loop.vars.published = true →
    ∀ row ∈ audit.replaced, row ∈ audit.loop.vars.store .hashes
  current : ∀ row ∈ audit.installed, row.pepper = pepper
  publishes : audit.loop.vars.published = true →
    pepper = audit.loop.vars.newPepper
  fresh : audit.loop.vars.published = false →
    pepper ≠ audit.loop.vars.newPepper ∧
      previous ≠ audit.loop.vars.newPepper
  order : audit.loop.vars.published = true →
    audit.loop.vars.previousSet = true
  publishing : .publish ∈ audit.loop.pending →
    audit.loop.vars.previousSet = true
  copies : ∀ data, .setPreviousPepper data ∈ audit.loop.pending →
    audit.loop.vars.published = false → data ≠ audit.loop.vars.newPepper
  drops : ∀ data, .deleteOldHashes data ∈ audit.loop.pending →
    data ≠ audit.loop.vars.newPepper ∧
      (∀ row ∈ audit.installed, row.pepper ≠ data) ∧
      (audit.loop.vars.published = true →
        ∀ row ∈ audit.replaced, row.pepper ≠ data)

theorem kept_idle (store : Store) (pepper previous : String) :
    Kept (.idle store pepper previous) pepper previous where
  keys := rfl
  installed := fun row hrow => (List.mem_filter.mp hrow).1
  replaced := fun _ row hrow => (List.mem_filter.mp hrow).1
  current := fun row hrow => by simpa using (List.mem_filter.mp hrow).2
  publishes := fun _ => rfl
  fresh := fun h => absurd h (by simp [Audit.idle])
  order := fun _ => rfl
  publishing := fun _ => rfl
  copies := fun data h => absurd h (by simp [Audit.idle])
  drops := fun data h => absurd h (by simp [Audit.idle])

theorem mem_deleted {rows stored : List HashRow} {data : String}
    (held : ∀ row ∈ rows, row ∈ stored) (other : ∀ row ∈ rows, row.pepper ≠ data) :
    ∀ row ∈ rows, row ∈ stored.filter fun row => !(row.pepper == data) := by
  intro row hrow
  refine List.mem_filter.mpr ⟨held row hrow, ?_⟩
  simpa using other row hrow

theorem Kept.ordinary (kept : Kept audit pepper previous)
    (completes : Loop.Completes (Rotation.react env conf) audit.loop outcome
      operation rest after)
    (ordinary : Rotation.Ordinary audit.loop.vars after.vars
      (Rotation.react env conf outcome operation audit.loop.vars).2) :
    Kept { audit with loop := after } pepper previous where
  keys := ordinary.keys.trans kept.keys
  installed := fun row hrow => ordinary.hashes row (kept.installed row hrow)
  replaced := by
    intro hreason row hrow
    rw [ordinary.published] at hreason
    exact ordinary.hashes row (kept.replaced hreason row hrow)
  current := kept.current
  publishes := by
    rw [ordinary.published, ordinary.newPepper]
    exact kept.publishes
  fresh := by
    rw [ordinary.published, ordinary.newPepper]
    exact kept.fresh
  order := by
    rw [ordinary.published, ordinary.previousSet]
    exact kept.order
  publishing := by
    intro h
    rw [ordinary.previousSet]
    rcases completes.mem_after h with ⟨_, hbefore⟩ | hissued
    · exact kept.publishing hbefore
    · exact ordinary.publishes hissued
  copies := by
    intro data h hpublished
    rw [ordinary.published] at hpublished
    rw [ordinary.newPepper]
    rcases completes.mem_after h with ⟨_, hbefore⟩ | hissued
    · exact kept.copies data hbefore hpublished
    · obtain ⟨other, hother⟩ := ordinary.copies data hissued
      have hdata : data = pepper := by
        rw [kept.keys] at hother
        simpa [keyRows] using (List.cons_eq_cons.mp hother).1.symm
      rw [hdata]
      exact (kept.fresh hpublished).1
  drops := by
    intro data h
    rw [ordinary.published, ordinary.newPepper]
    rcases completes.mem_after h with ⟨_, hbefore⟩ | hissued
    · exact kept.drops data hbefore
    · exact absurd hissued (ordinary.deletes data)

/-- Old hashes are to be deleted only under a pepper that is neither published
nor new. -/
theorem Kept.getPreviousPepper (kept : Kept audit pepper previous)
    (completes : Loop.Completes (Rotation.react env conf) audit.loop outcome
      .getPreviousPepper rest after)
    (safe : .deleteOldHashes previous ∈
        (Rotation.react env conf outcome .getPreviousPepper
          audit.loop.vars).2 →
      audit.loop.vars.previousSet = false ∧ pepper ≠ previous) :
    Kept { audit with loop := after } pepper previous := by
  have hreact := @Rotation.react_getPreviousPepper env conf outcome
    audit.loop.vars pepper previous kept.keys
  have hvars : after.vars = audit.loop.vars := by
    rw [completes.vars, hreact]
  have hpending : ∀ other ∈ after.pending, other ∈ audit.loop.pending ∨
      (other = .deleteOldHashes previous ∧
        audit.loop.vars.previousSet = false ∧ pepper ≠ previous) := by
    intro other h
    rcases completes.mem_after h with ⟨_, hbefore⟩ | hissued
    · exact .inl hbefore
    · have hother : other = .deleteOldHashes previous := by
        rw [hreact] at hissued
        split at hissued
        · exact List.mem_singleton.mp hissued
        · cases hissued
      rw [hother] at hissued
      exact .inr ⟨hother, safe hissued⟩
  refine ⟨?_, ?_, ?_, kept.current, ?_, ?_, ?_, ?_, ?_, ?_⟩
  · rw [hvars]
    exact kept.keys
  · rw [hvars]
    exact kept.installed
  · rw [hvars]
    exact kept.replaced
  · rw [hvars]
    exact kept.publishes
  · rw [hvars]
    exact kept.fresh
  · rw [hvars]
    exact kept.order
  · intro h
    rw [hvars]
    rcases hpending _ h with hbefore | ⟨hother, _⟩
    · exact kept.publishing hbefore
    · cases hother
  · intro data h
    rw [hvars]
    rcases hpending _ h with hbefore | ⟨hother, _⟩
    · exact kept.copies data hbefore
    · cases hother
  · intro data h
    rw [hvars]
    rcases hpending _ h with hbefore | ⟨hother, hset, hdistinct⟩
    · exact kept.drops data hbefore
    · have hunpublished : audit.loop.vars.published = false := by
        cases hpublished : audit.loop.vars.published with
        | false => rfl
        | true =>
            rw [kept.order hpublished] at hset
            cases hset
      cases hother
      refine ⟨(kept.fresh hunpublished).2, ?_, ?_⟩
      · intro row hrow
        rw [kept.current row hrow]
        exact hdistinct
      · intro hpublished
        rw [hunpublished] at hpublished
        cases hpublished

theorem Kept.deleteOldHashes {data : String}
    (kept : Kept audit pepper previous)
    (completes : Loop.Completes (Rotation.react env conf) audit.loop outcome
      (.deleteOldHashes data) rest after) :
    Kept { audit with
      loop := after,
      deleted := audit.deleted ||
        (attempt env outcome.fails
          (.deleteEqual .hashes "pepper" (.str data))
          audit.loop.vars.store).1.isSome } pepper previous := by
  rcases attempt_deleteHashes env outcome.fails data audit.loop.vars.store with
    hrefused | hdeleted
  · have hreact : Rotation.react env conf outcome (.deleteOldHashes data)
        audit.loop.vars = (audit.loop.vars, []) := by
      simp only [Rotation.react, hrefused]
    have hvars : after.vars = audit.loop.vars := by
      rw [completes.vars, hreact]
    simp only [hrefused, Option.isSome_none, Bool.or_false]
    apply kept.ordinary completes
    rw [hvars, hreact]
    exact ⟨rfl, fun _ h => h, rfl, rfl, rfl, by simp, by simp, by simp⟩
  · have hreact : Rotation.react env conf outcome (.deleteOldHashes data)
        audit.loop.vars =
        ({ audit.loop.vars with
            store := Function.update audit.loop.vars.store .hashes
              ((audit.loop.vars.store .hashes).filter fun row =>
                !(row.pepper == data)) }, []) := by
      simp only [Rotation.react, hdeleted]
    have hvars := completes.vars
    rw [hreact] at hvars
    have hpending : ∀ other ∈ after.pending, other ∈ audit.loop.pending := by
      intro other h
      rcases completes.mem_after h with ⟨_, hbefore⟩ | hissued
      · exact hbefore
      · rw [hreact] at hissued
        cases hissued
    obtain ⟨_, hinstalled, hreplaced⟩ := kept.drops data completes.mem_pending
    simp only [hdeleted, Option.isSome_some, Bool.or_true]
    refine ⟨?_, ?_, ?_, kept.current, ?_, ?_, ?_, ?_, ?_, ?_⟩
    · rw [hvars]
      exact kept.keys
    · rw [hvars]
      exact mem_deleted kept.installed hinstalled
    · rw [hvars]
      intro hreason
      rcases hreason with hnone | hpublished
      · cases hnone
      · exact mem_deleted (kept.replaced (.inr hpublished))
          (hreplaced hpublished)
    · rw [hvars]
      exact kept.publishes
    · rw [hvars]
      exact kept.fresh
    · rw [hvars]
      exact kept.order
    · intro h
      rw [hvars]
      exact kept.publishing (hpending _ h)
    · intro other h
      rw [hvars]
      exact kept.copies other (hpending _ h)
    · intro other h
      rw [hvars]
      exact kept.drops other (hpending _ h)

theorem Kept.rejected (kept : Kept audit pepper previous)
    (completes : Loop.Completes (Rotation.react env conf) audit.loop outcome
      operation rest after)
    (rejects : Rotation.react env conf outcome operation audit.loop.vars =
      audit.loop.vars.reject) :
    Kept { audit with loop := after } pepper previous := by
  apply kept.ordinary completes
  rw [completes.vars, rejects]
  exact Rotation.ordinary_reject _

theorem Kept.setPreviousPepper {data : String}
    (kept : Kept audit pepper previous)
    (completes : Loop.Completes (Rotation.react env conf) audit.loop outcome
      (.setPreviousPepper data) rest after) :
    ∃ previous', Kept { audit with loop := after } pepper previous' := by
  rcases @Rotation.react_setPreviousPepper env conf outcome audit.loop.vars
    pepper previous kept.keys data with hreject | hset
  · exact ⟨previous, kept.rejected completes hreject⟩
  · have hvars := completes.vars
    rw [hset] at hvars
    have hpending : ∀ other ∈ after.pending, other ∈ audit.loop.pending ∨
        other = .publish := by
      intro other h
      rcases completes.mem_after h with ⟨_, hbefore⟩ | hissued
      · exact .inl hbefore
      · rw [hset] at hissued
        exact .inr (Rotation.mem_settle hissued).1
    refine ⟨data, ?_, ?_, ?_, kept.current, ?_, ?_, ?_, ?_, ?_, ?_⟩
    · rw [hvars]
      rfl
    · rw [hvars]
      exact kept.installed
    · rw [hvars]
      exact kept.replaced
    · rw [hvars]
      exact kept.publishes
    · rw [hvars]
      intro hpublished
      exact ⟨(kept.fresh hpublished).1,
        kept.copies data completes.mem_pending hpublished⟩
    · rw [hvars]
      exact fun _ => rfl
    · rw [hvars]
      exact fun _ => rfl
    · intro other h
      rw [hvars]
      rcases hpending _ h with hbefore | hpublish
      · exact kept.copies other hbefore
      · cases hpublish
    · intro other h
      rw [hvars]
      rcases hpending _ h with hbefore | hpublish
      · exact kept.drops other hbefore
      · cases hpublish

/-- The publication installs the rows under the new pepper, and what was
installed becomes what is replaced. -/
theorem Kept.publish (kept : Kept audit pepper previous)
    (completes : Loop.Completes (Rotation.react env conf) audit.loop outcome
      .publish rest after)
    (hpublish : Rotation.react env conf outcome .publish audit.loop.vars =
      ({ audit.loop.vars with
          store := Function.update audit.loop.vars.store .keys
            (keyRows audit.loop.vars.newPepper previous),
          published := true }, [])) :
    Kept { audit with
      loop := after,
      installed := underPepper after.vars.store after.vars.newPepper,
      replaced := audit.installed } audit.loop.vars.newPepper previous := by
  have hvars : after.vars = { audit.loop.vars with
      store := Function.update audit.loop.vars.store .keys
        (keyRows audit.loop.vars.newPepper previous),
      published := true } := by
    rw [completes.vars, hpublish]
  have hnew : after.vars.newPepper = audit.loop.vars.newPepper := by
    rw [hvars]
  have hset : after.vars.previousSet = true := by
    rw [hvars]
    exact kept.publishing completes.mem_pending
  have hpublished : after.vars.published = true := by rw [hvars]
  have hinstalled : ∀ row ∈ underPepper after.vars.store after.vars.newPepper,
      row.pepper = audit.loop.vars.newPepper := by
    intro row hrow
    rw [← hnew]
    simpa using (List.mem_filter.mp hrow).2
  have hpending : ∀ other ∈ after.pending, other ∈ audit.loop.pending := by
    intro other h
    rcases completes.mem_after h with ⟨_, hbefore⟩ | hissued
    · exact hbefore
    · rw [hpublish] at hissued
      cases hissued
  refine ⟨?_, ?_, ?_, hinstalled, ?_, ?_, ?_, ?_, ?_, ?_⟩
  · rw [hvars]
    rfl
  · exact fun row hrow => (List.mem_filter.mp hrow).1
  · rw [hvars]
    exact fun _ => kept.installed
  · exact fun _ => hnew.symm
  · intro h
    rw [hpublished] at h
    cases h
  · exact fun _ => hset
  · exact fun _ => hset
  · intro data _ h
    rw [hpublished] at h
    cases h
  · intro data h
    obtain ⟨hother, hbefore, _⟩ := kept.drops data (hpending _ h)
    refine ⟨?_, ?_, fun _ => hbefore⟩
    · rw [hnew]
      exact hother
    · intro row hrow
      rw [hinstalled row hrow]
      exact hother.symm

/-! Every run. -/

/-- What every state of a run of safe rotations satisfies. -/
structure Rotates (audit : Audit) : Prop where
  kept : ∃ pepper previous, Kept audit pepper previous
  chain : Chain audit.loop
  succeeds : audit.deleted = true → audit.loop.vars.rejected = false

theorem rotates_idle (store : Store) (pepper previous : String) :
    Rotates (.idle store pepper previous) where
  kept := ⟨pepper, previous, kept_idle store pepper previous⟩
  chain :=
    ⟨fun _ => .inr (.inl rfl), fun _ => .inl rfl, fun _ _ _ => .inl rfl,
      by simp [Audit.idle], fun _ => rfl, fun _ => rfl⟩
  succeeds := fun h => absurd h (by simp [Audit.idle])

theorem Rotates.start (rotates : Rotates audit) {newPepper : String}
    (done : audit.loop.pending = [])
    (fresh : drawsPepper audit (.start newPepper) = true) :
    Rotates { audit with
      loop := startRotation audit.loop.vars.store newPepper,
      deleted := false } where
  kept := by
    obtain ⟨pepper, previous, hkept⟩ := rotates.kept
    have hreason : audit.deleted = false ∨
        audit.loop.vars.published = true := by
      cases hdeleted : audit.deleted with
      | false => exact .inl rfl
      | true =>
          exact .inr (rotates.chain.settled done (rotates.succeeds hdeleted))
    have hfresh : pepper ≠ newPepper ∧ previous ≠ newPepper := by
      simp only [drawsPepper, hkept.keys, keyRows, Bool.and_eq_true,
        List.all_cons, List.all_nil, bne_iff_ne] at fresh
      exact ⟨fresh.2.1, fresh.2.2.1⟩
    exact ⟨pepper, previous, {
      keys := hkept.keys
      installed := hkept.installed
      replaced := fun _ => hkept.replaced hreason
      current := hkept.current
      publishes := fun h => absurd h (by simp [startRotation])
      fresh := fun _ => hfresh
      order := fun h => absurd h (by simp [startRotation])
      publishing := fun h => absurd h (by simp [startRotation])
      copies := fun data h => absurd h (by simp [startRotation])
      drops := fun data h => absurd h (by simp [startRotation]) }⟩
  chain := chain_start audit.loop.vars.store newPepper
  succeeds := fun h => absurd h (by simp)

/-- An operation other than the deletion and the publication only moves the
loop. -/
theorem observe_other {index : Nat}
    (pending : audit.loop.pending[index]? = some operation)
    (notDelete : ∀ data, operation ≠ .deleteOldHashes data)
    (notPublish : operation ≠ .publish) :
    observe env audit after (.complete index outcome) =
      { audit with loop := after } := by
  have hdeletes : deletes env audit.loop index outcome = false := by
    unfold deletes
    rw [pending]
    split
    · rename_i data hdata
      exact absurd (Option.some.inj hdata) (notDelete data)
    · rfl
  have hpublishes : publishes env audit.loop index outcome = false := by
    unfold publishes
    rw [pending]
    split
    · rename_i hpublish
      exact absurd (Option.some.inj hpublish) notPublish
    · rfl
  simp [observe, hdeletes, hpublishes]

theorem safe_of_readsPublished {index : Nat}
    (keys : audit.loop.vars.store .keys = keyRows pepper previous)
    (pending : audit.loop.pending[index]? = some .getPreviousPepper)
    (safe : readsPublished env conf audit.loop index outcome = false)
    (issued : .deleteOldHashes previous ∈
      (Rotation.react env conf outcome .getPreviousPepper
        audit.loop.vars).2) :
    audit.loop.vars.previousSet = false ∧ pepper ≠ previous := by
  have hreact := @Rotation.react_getPreviousPepper env conf outcome
    audit.loop.vars pepper previous keys
  rw [hreact] at issued
  have hold : outcome.fails = false ∧ previous.length = 32 := by
    by_contra hnot
    rw [if_neg hnot] at issued
    cases issued
  simp only [readsPublished, pending, hreact, if_pos hold, keys, keyRows]
    at safe
  simpa using safe

theorem kept_complete {index : Nat} (kept : Kept audit pepper previous)
    (pending : audit.loop.pending[index]? = some operation)
    (completes : Loop.Completes (Rotation.react env conf) audit.loop outcome
      operation rest after)
    (safe : readsPublished env conf audit.loop index outcome = false) :
    ∃ pepper' previous',
      Kept (observe env audit after (.complete index outcome)) pepper'
        previous' := by
  cases operation with
  | getPreviousPepper =>
      rw [observe_other pending (by simp) (by simp)]
      exact ⟨pepper, previous, kept.getPreviousPepper completes
        (safe_of_readsPublished kept.keys pending safe)⟩
  | deleteOldHashes data =>
      refine ⟨pepper, previous, ?_⟩
      have hkept := kept.deleteOldHashes completes
      simpa only [observe, deletes, publishes, pending, Bool.false_eq_true,
        if_false] using hkept
  | getPepper =>
      rw [observe_other pending (by simp) (by simp)]
      refine ⟨pepper, previous, kept.ordinary completes ?_⟩
      rw [completes.vars]
      exact Rotation.ordinary_getPepper kept.keys
  | setPreviousPepper data =>
      rw [observe_other pending (by simp) (by simp)]
      obtain ⟨previous', hkept⟩ := kept.setPreviousPepper completes
      exact ⟨pepper, previous', hkept⟩
  | getUsers =>
      rw [observe_other pending (by simp) (by simp)]
      refine ⟨pepper, previous, kept.ordinary completes ?_⟩
      rw [completes.vars]
      exact Rotation.ordinary_getUsers
  | getMatrixUsers rows =>
      rw [observe_other pending (by simp) (by simp)]
      refine ⟨pepper, previous, kept.ordinary completes ?_⟩
      rw [completes.vars]
      exact Rotation.ordinary_getMatrixUsers rows
  | hash task =>
      rw [observe_other pending (by simp) (by simp)]
      refine ⟨pepper, previous, kept.ordinary completes ?_⟩
      rw [completes.vars]
      exact Rotation.ordinary_hash task
  | publish =>
      rcases attempt_setKey env outcome.fails "pepper"
          audit.loop.vars.newPepper audit.loop.vars.store with
        hrefused | ⟨rows, hset⟩
      · have hreject : Rotation.react env conf outcome .publish
            audit.loop.vars = audit.loop.vars.reject := by
          simp only [Rotation.react, hrefused]
        have hkept := kept.rejected completes hreject
        refine ⟨pepper, previous, ?_⟩
        simpa only [observe, deletes, publishes, pending, hrefused,
          Option.isSome_none, Bool.or_false, Bool.false_eq_true, if_false]
          using hkept
      · rw [kept.keys, setKey_pepper] at hset
        have hkept := kept.publish completes (by
          simp only [Rotation.react, hset])
        refine ⟨audit.loop.vars.newPepper, previous, ?_⟩
        simpa only [observe, deletes, publishes, pending, hset,
          Option.isSome_some, Bool.or_false, if_true] using hkept

theorem Rotates.step (rotates : Rotates audit) {event : RotationEvent}
    {next : Audit} (safe : SafeRotation env conf audit event)
    (stepped : auditStep env conf audit event = some next) :
    Rotates next := by
  obtain ⟨loop, hloop, hnext⟩ := Option.map_eq_some_iff.mp stepped
  cases event with
  | start newPepper =>
      simp only [rotationStep] at hloop
      split at hloop
      · rename_i hdone
        cases hloop
        rw [← hnext]
        exact rotates.start (List.isEmpty_iff.mp hdone) safe.1
      · cases hloop
  | complete index outcome =>
      change audit.loop.complete (Rotation.react env conf) index outcome =
        some loop at hloop
      obtain ⟨operation, hpending, hcompletes⟩ := Loop.complete_cases hloop
      obtain ⟨pepper, previous, hkept⟩ := rotates.kept
      have hsafe := safe.2
      simp only [rotatesSafely, stepped, Option.all_some, Bool.and_eq_true,
        Bool.not_eq_true'] at hsafe
      have hobserved : next.loop = loop := by
        rw [← hnext]
        simp only [observe]
        split
        · rfl
        · rfl
      refine ⟨?_, ?_, ?_⟩
      · rw [← hnext]
        exact kept_complete hkept hpending hcompletes hsafe.1
      · rw [hobserved]
        exact chain_complete rotates.chain hkept.keys hcompletes
      · intro hdeleted
        simpa [hdeleted] using hsafe.2

/-- In every run of safe rotations, the published directory and the one before
it are complete whenever no rotation is in progress. -/
theorem rotation_keeps_directory {store : Store}
    (reached : Reachable (auditStep env conf) (SafeRotation env conf)
      (.idle store pepper previous) audit) : DirectoryKept audit := by
  have hrotates : Rotates audit := by
    apply reached.invariant Rotates (rotates_idle store pepper previous)
    intro before event next hbefore hsafe hstep
    exact hbefore.step hsafe hstep
  intro hdone
  obtain ⟨pepper', previous', hkept⟩ := hrotates.kept
  refine ⟨hkept.installed, hkept.replaced ?_⟩
  cases hdeleted : audit.deleted with
  | false => exact .inl rfl
  | true =>
      exact .inr (hrotates.chain.settled hdone (hrotates.succeeds hdeleted))

/-! Rotations of a directory with one user. -/

def aliceUser : UserRow where
  uid := some "alice"
  mail := some "alice@example.org"
  mobile := none

/-- A rotation of which every operation succeeds, in the order issued. -/
def rotate (newPepper : String) (operations : Nat) : List RotationEvent :=
  .start newPepper ::
    List.replicate operations (.complete 0 { users := [aliceUser] })

/-- The user database fails after the pepper was copied. -/
def rotateWithoutUsers (newPepper : String) : List RotationEvent :=
  .start newPepper ::
    [.complete 0 {}, .complete 0 {}, .complete 0 {},
      .complete 0 { fails := true }]

/-- Old hashes are deleted, but the published pepper cannot be read. -/
def rotateWithoutPepper (newPepper : String) : List RotationEvent :=
  [.start newPepper, .complete 0 {}, .complete 1 {},
    .complete 0 { fails := true }]

def pepperA : String := "aaaaaaaaaaaaaaaaaaaaaaaaaaaaaaaa"

def pepperB : String := "bbbbbbbbbbbbbbbbbbbbbbbbbbbbbbbb"

def pepperC : String := "cccccccccccccccccccccccccccccccc"

def rotations (permits : Audit → RotationEvent → Bool)
    (events : List RotationEvent) : Option Audit :=
  runEvents (auditStep (.offline id) .sample) permits events
    (.idle emptyStore "" "")

def peppers (rows : List HashRow) : List String := rows.map (·.pepper)

def directories (audit : Audit) : Bool × List String × List String :=
  (audit.loop.pending.isEmpty, peppers audit.installed,
    peppers (audit.loop.vars.store .hashes))

theorem rotation_keeps_directory_alice :
    ∃ audit, Reachable (auditStep (.offline id) .sample)
        (SafeRotation (.offline id) .sample) (.idle emptyStore "" "") audit ∧
      directories audit = (true, [pepperC], [pepperB, pepperC]) ∧
      DirectoryKept audit := by
  have hrun : (rotations (fun audit event => drawsPepper audit event &&
      rotatesSafely (.offline id) .sample audit event)
      (rotate pepperA 6 ++ rotate pepperB 6 ++ rotate pepperC 7)).map
        directories = some (true, [pepperC], [pepperB, pepperC]) := by
    decide +kernel
  obtain ⟨audit, haudit, hdirectories⟩ := Option.map_eq_some_iff.mp hrun
  have hreached : Reachable (auditStep (.offline id) .sample)
      (SafeRotation (.offline id) .sample) (.idle emptyStore "" "") audit := by
    apply reachable_of_runEvents _ haudit
    intro state event hpermits
    exact Bool.and_eq_true_iff.mp hpermits
  exact ⟨audit, hreached, hdirectories, rotation_keeps_directory hreached⟩

/-- Two failures in a row empty the published directory. -/
theorem rotation_empties_directory :
    ¬ ∀ (env : Environment) (conf : Config) (store : Store)
        (pepper previous : String) (audit : Audit),
      Reachable (auditStep env conf) FreshPepper (.idle store pepper previous)
        audit → DirectoryKept audit := by
  intro keeps
  have hrun : (rotations drawsPepper (rotate pepperA 6 ++
      rotateWithoutUsers pepperB ++ rotateWithoutPepper pepperC)).map
        directories = some (true, [pepperA], []) := by
    decide
  obtain ⟨audit, haudit, hdirectories⟩ := Option.map_eq_some_iff.mp hrun
  have hreached : Reachable (auditStep (.offline id) .sample) FreshPepper
      (.idle emptyStore "" "") audit :=
    reachable_of_runEvents (fun _ _ h => h) haudit
  simp only [directories, peppers, Prod.mk.injEq, List.isEmpty_iff,
    List.map_eq_nil_iff] at hdirectories
  obtain ⟨hdone, hinstalled, hhashes⟩ := hdirectories
  obtain ⟨row, others, hrow, _⟩ := List.map_eq_cons_iff.mp hinstalled
  have hkept := (keeps _ _ _ _ _ audit hreached hdone).1 row (by simp [hrow])
  rw [hhashes] at hkept
  cases hkept

end TwakeKickstart.IdentityServer
