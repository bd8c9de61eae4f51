import TwakeKickstart.IdentityServer.Cron.ChangePepper

namespace TwakeKickstart.IdentityServer

open Library Utils

/-! A rotation that does not fail goes on until it has published. -/

variable {env : Environment} {conf : Config} {outcome : Outcome}
variable {pepper previous : String} {before after : RotationLoop}
variable {operation : RotationOperation} {rest : List RotationOperation}

namespace RotationOperation

def isHash : RotationOperation → Bool
  | getPreviousPepper => false
  | deleteOldHashes _ => false
  | getPepper => false
  | setPreviousPepper _ => false
  | getUsers => false
  | getMatrixUsers _ => false
  | hash _ => true
  | publish => false

def isDirectory : RotationOperation → Bool
  | getPreviousPepper => false
  | deleteOldHashes _ => false
  | getPepper => true
  | setPreviousPepper _ => false
  | getUsers => true
  | getMatrixUsers _ => true
  | hash _ => false
  | publish => false

end RotationOperation

structure Chain (loop : RotationLoop) : Prop where
  copying : loop.vars.rejected = false →
    .getPepper ∈ loop.pending ∨ loop.vars.previousSet = true ∨
      ∃ data, .setPreviousPepper data ∈ loop.pending
  hashing : loop.vars.rejected = false →
    loop.vars.hashed = true ∨ 0 < loop.pending.countP (·.isDirectory) ∨
      0 < loop.pending.countP (·.isHash)
  publishing : loop.vars.rejected = false → loop.vars.previousSet = true →
    loop.vars.hashed = true →
    loop.vars.published = true ∨ .publish ∈ loop.pending
  single : loop.pending.countP (·.isDirectory) ≤ 1
  unstarted : 0 < loop.pending.countP (·.isDirectory) →
    loop.vars.workers.unresolved = 0
  balanced : loop.vars.rejected = false →
    loop.pending.countP (·.isHash) + loop.vars.workers.waiting.length =
      loop.vars.workers.unresolved

theorem chain_start (store : Store) (newPepper : String) :
    Chain (startRotation store newPepper) where
  copying := fun _ => .inl (by simp [startRotation])
  hashing := fun _ => .inr (.inl (by
    simp [startRotation, RotationOperation.isDirectory]))
  publishing := fun _ h => absurd h (by simp [startRotation])
  single := by simp [startRotation, RotationOperation.isDirectory]
  unstarted := fun _ => rfl
  balanced := fun _ => by simp [startRotation, RotationOperation.isHash]

/-- At its end a rotation has failed or published. -/
theorem Chain.settled {loop : RotationLoop} (chain : Chain loop)
    (done : loop.pending = []) (accepted : loop.vars.rejected = false) :
    loop.vars.published = true := by
  have hset : loop.vars.previousSet = true := by
    simpa [done] using chain.copying accepted
  have hhashed : loop.vars.hashed = true := by
    simpa [done] using chain.hashing accepted
  simpa [done] using chain.publishing accepted hset hhashed

/-- A rotation that has failed owes nothing more. -/
theorem Chain.of_rejected {loop : RotationLoop}
    (rejected : loop.vars.rejected = true)
    (single : loop.pending.countP (·.isDirectory) ≤ 1)
    (unstarted : 0 < loop.pending.countP (·.isDirectory) →
      loop.vars.workers.unresolved = 0) : Chain loop := by
  have hnever : loop.vars.rejected ≠ false := by
    rw [rejected]
    decide
  exact ⟨fun h => absurd h hnever, fun h => absurd h hnever,
    fun h => absurd h hnever, single, unstarted, fun h => absurd h hnever⟩

theorem Chain.reject (chain : Chain before)
    (completes : Loop.Completes (Rotation.react env conf) before outcome
      operation rest after)
    (rejects : Rotation.react env conf outcome operation before.vars =
      before.vars.reject) : Chain after := by
  have hcount := completes.countP_balance (·.isDirectory)
  have hvars := completes.vars
  rw [rejects] at hvars hcount
  change _ = _ + 0 at hcount
  have hrejected : after.vars.rejected = true := by
    rw [hvars]
    rfl
  have hsingle := chain.single
  apply Chain.of_rejected hrejected (by omega)
  intro h
  rw [hvars]
  exact chain.unstarted (by omega)

/-- An operation that is no part of the chain. -/
theorem Chain.aside (chain : Chain before)
    (completes : Loop.Completes (Rotation.react env conf) before outcome
      operation rest after)
    (flags : after.vars.rejected = before.vars.rejected ∧
      after.vars.previousSet = before.vars.previousSet ∧
      after.vars.hashed = before.vars.hashed ∧
      after.vars.published = before.vars.published ∧
      after.vars.workers = before.vars.workers)
    (other : operation = .getPreviousPepper ∨
      ∃ data, operation = .deleteOldHashes data)
    (directory : (Rotation.react env conf outcome operation
      before.vars).2.countP (·.isDirectory) = 0)
    (hashes : (Rotation.react env conf outcome operation
      before.vars).2.countP (·.isHash) = 0) : Chain after := by
  obtain ⟨hrejected, hset, hhashed, hpublished, hworkers⟩ := flags
  have hdirectory : after.pending.countP (·.isDirectory) =
      before.pending.countP (·.isDirectory) := by
    have hcount := completes.countP_balance (·.isDirectory)
    rw [directory] at hcount
    rcases other with rfl | ⟨data, rfl⟩
    · exact hcount
    · exact hcount
  have hhash : after.pending.countP (·.isHash) =
      before.pending.countP (·.isHash) := by
    have hcount := completes.countP_balance (·.isHash)
    rw [hashes] at hcount
    rcases other with rfl | ⟨data, rfl⟩
    · exact hcount
    · exact hcount
  have hstays : ∀ chained ∈ before.pending, chained ≠ .getPreviousPepper →
      (∀ data, chained ≠ .deleteOldHashes data) → chained ∈ after.pending := by
    intro chained hmem hfirst hsecond
    rcases completes.mem_before hmem with hsame | hafter
    · rcases other with rfl | ⟨data, rfl⟩
      · exact absurd hsame hfirst
      · exact absurd hsame (hsecond data)
    · exact hafter
  refine ⟨?_, ?_, ?_, ?_, ?_, ?_⟩
  · rw [hrejected, hset]
    intro h
    rcases chain.copying h with hget | hdone | ⟨data, hcopy⟩
    · exact .inl (hstays _ hget (by simp) (by simp))
    · exact .inr (.inl hdone)
    · exact .inr (.inr ⟨data, hstays _ hcopy (by simp) (by simp)⟩)
  · rw [hrejected, hhashed, hdirectory, hhash]
    exact chain.hashing
  · rw [hrejected, hset, hhashed, hpublished]
    intro haccepted hset hhashed
    rcases chain.publishing haccepted hset hhashed with hdone | hpublish
    · exact .inl hdone
    · exact .inr (hstays _ hpublish (by simp) (by simp))
  · rw [hdirectory]
    exact chain.single
  · rw [hdirectory, hworkers]
    exact chain.unstarted
  · rw [hrejected, hhash, hworkers]
    exact chain.balanced

theorem Chain.copying_of (chain : Chain before)
    (completes : Loop.Completes (Rotation.react env conf) before outcome
      operation rest after)
    (notRead : operation ≠ .getPepper)
    (notCopy : ∀ data, operation ≠ .setPreviousPepper data)
    (same : after.vars.previousSet = before.vars.previousSet)
    (accepted : before.vars.rejected = false) :
    .getPepper ∈ after.pending ∨ after.vars.previousSet = true ∨
      ∃ data, .setPreviousPepper data ∈ after.pending := by
  rcases chain.copying accepted with hget | hdone | ⟨data, hcopy⟩
  · rcases completes.mem_before hget with hsame | hafter
    · exact absurd hsame.symm notRead
    · exact .inl hafter
  · rw [same]
    exact .inr (.inl hdone)
  · rcases completes.mem_before hcopy with hsame | hafter
    · exact absurd hsame.symm (notCopy data)
    · exact .inr (.inr ⟨data, hafter⟩)

theorem Chain.publishing_of (chain : Chain before)
    (completes : Loop.Completes (Rotation.react env conf) before outcome
      operation rest after)
    (notPublish : operation ≠ .publish)
    (accepted : before.vars.rejected = false)
    (previousSet : before.vars.previousSet = true)
    (hashed : before.vars.hashed = true) :
    before.vars.published = true ∨ .publish ∈ after.pending := by
  rcases chain.publishing accepted previousSet hashed with hdone | hpublish
  · exact .inl hdone
  · rcases completes.mem_before hpublish with hsame | hafter
    · exact absurd hsame.symm notPublish
    · exact .inr hafter

theorem Chain.getPepper (chain : Chain before)
    (completes : Loop.Completes (Rotation.react env conf) before outcome
      .getPepper rest after)
    (hreact : Rotation.react env conf outcome .getPepper before.vars =
      (before.vars, [.setPreviousPepper pepper, .getUsers])) :
    Chain after := by
  have hvars : after.vars = before.vars := by rw [completes.vars, hreact]
  have hissued : ∀ other ∈ [.setPreviousPepper pepper,
      RotationOperation.getUsers], other ∈ after.pending := by
    intro other h
    rw [completes.issued, hreact]
    exact List.mem_append_right _ h
  have hdirectory := completes.countP_balance (·.isDirectory)
  have hhash := completes.countP_balance (·.isHash)
  rw [hreact] at hdirectory hhash
  change _ + 1 = _ + 1 at hdirectory
  change _ + 0 = _ + 0 at hhash
  have hsingle := chain.single
  refine ⟨?_, ?_, ?_, by omega, ?_, ?_⟩
  · exact fun _ => .inr (.inr ⟨pepper, hissued _ (by simp)⟩)
  · exact fun _ => .inr (.inl (List.countP_pos_iff.mpr
      ⟨.getUsers, hissued _ (by simp), rfl⟩))
  · rw [hvars]
    exact chain.publishing_of completes (by simp)
  · rw [hvars]
    exact fun _ => chain.unstarted (by omega)
  · rw [hvars]
    intro haccepted
    have hbalanced := chain.balanced haccepted
    omega

theorem mem_settle_of {rotation : Rotation}
    (previousSet : rotation.previousSet = true)
    (hashed : rotation.hashed = true) : .publish ∈ rotation.settle.2 := by
  simp [Rotation.settle, previousSet, hashed]

theorem countP_settle (rotation : Rotation)
    {counted : RotationOperation → Bool} (h : counted .publish = false) :
    rotation.settle.2.countP counted = 0 := by
  unfold Rotation.settle
  dsimp only
  split
  · simp [h]
  · rfl

theorem Chain.setPreviousPepper {data : String} {store : Store}
    (chain : Chain before)
    (completes : Loop.Completes (Rotation.react env conf) before outcome
      (.setPreviousPepper data) rest after)
    (hreact : Rotation.react env conf outcome (.setPreviousPepper data)
      before.vars =
        Rotation.settle { before.vars with store, previousSet := true }) :
    Chain after := by
  have hvars : after.vars = { before.vars with store, previousSet := true } := by
    rw [completes.vars, hreact]
    rfl
  have hdirectory : after.pending.countP (·.isDirectory) =
      before.pending.countP (·.isDirectory) := by
    have hcount := completes.countP_balance (·.isDirectory)
    rw [hreact, countP_settle _ rfl] at hcount
    exact hcount
  have hhash : after.pending.countP (·.isHash) =
      before.pending.countP (·.isHash) := by
    have hcount := completes.countP_balance (·.isHash)
    rw [hreact, countP_settle _ rfl] at hcount
    exact hcount
  refine ⟨?_, ?_, ?_, ?_, ?_, ?_⟩
  · rw [hvars]
    exact fun _ => .inr (.inl rfl)
  · rw [hvars, hdirectory, hhash]
    exact chain.hashing
  · rw [hvars]
    intro haccepted _ hhashed
    refine .inr ?_
    rw [completes.issued, hreact]
    exact List.mem_append_right _ (mem_settle_of rfl hhashed)
  · rw [hdirectory]
    exact chain.single
  · rw [hdirectory, hvars]
    exact chain.unstarted
  · rw [hhash, hvars]
    exact chain.balanced

theorem Chain.publish (chain : Chain before) {store : Store}
    (completes : Loop.Completes (Rotation.react env conf) before outcome
      .publish rest after)
    (hreact : Rotation.react env conf outcome .publish before.vars =
      ({ before.vars with store, published := true }, [])) : Chain after := by
  have hvars : after.vars = { before.vars with store, published := true } := by
    rw [completes.vars, hreact]
  have hdirectory := completes.countP_balance (·.isDirectory)
  have hhash := completes.countP_balance (·.isHash)
  rw [hreact] at hdirectory hhash
  change _ + 0 = _ + 0 at hdirectory hhash
  simp only [Nat.add_zero] at hdirectory hhash
  refine ⟨?_, ?_, ?_, ?_, ?_, ?_⟩
  · intro haccepted
    apply chain.copying_of completes (by simp) (by simp)
    · rw [hvars]
    · rw [hvars] at haccepted
      exact haccepted
  · rw [hvars, hdirectory, hhash]
    exact chain.hashing
  · rw [hvars]
    exact fun _ _ _ => .inl rfl
  · rw [hdirectory]
    exact chain.single
  · rw [hvars, hdirectory]
    exact chain.unstarted
  · rw [hvars, hhash]
    exact chain.balanced

theorem Chain.getMatrixUsers (chain : Chain before) {rows : List UserRow}
    (completes : Loop.Completes (Rotation.react env conf) before outcome
      .getUsers rest after)
    (hreact : Rotation.react env conf outcome .getUsers before.vars =
      (before.vars, [.getMatrixUsers rows])) : Chain after := by
  have hvars : after.vars = before.vars := by rw [completes.vars, hreact]
  have hdirectory := completes.countP_balance (·.isDirectory)
  have hhash := completes.countP_balance (·.isHash)
  rw [hreact] at hdirectory hhash
  change _ + 1 = _ + 1 at hdirectory
  change _ + 0 = _ + 0 at hhash
  simp only [Nat.add_zero, Nat.add_right_cancel_iff] at hdirectory hhash
  refine ⟨?_, ?_, ?_, ?_, ?_, ?_⟩
  · intro haccepted
    apply chain.copying_of completes (by simp) (by simp)
    · rw [hvars]
    · rw [hvars] at haccepted
      exact haccepted
  · rw [hvars, hdirectory, hhash]
    exact chain.hashing
  · rw [hvars]
    exact chain.publishing_of completes (by simp)
  · rw [hdirectory]
    exact chain.single
  · rw [hvars, hdirectory]
    exact chain.unstarted
  · rw [hvars, hhash]
    exact chain.balanced

theorem countP_hashes (operations : List HashOperation) :
    (operations.map RotationOperation.hash).countP (·.isHash) =
      operations.length ∧
    (operations.map RotationOperation.hash).countP (·.isDirectory) = 0 := by
  induction operations with
  | nil => exact ⟨rfl, rfl⟩
  | cons head tail ih =>
      refine ⟨?_, ?_⟩
      · rw [List.map_cons, List.countP_cons, ih.1]
        rfl
      · rw [List.map_cons, List.countP_cons, ih.2]
        rfl

theorem Chain.onUsers (chain : Chain before) {rows : List UserRow}
    (completes : Loop.Completes (Rotation.react env conf) before outcome
      operation rest after)
    (users : operation = .getUsers ∨ ∃ rows, operation = .getMatrixUsers rows)
    (hreact : Rotation.react env conf outcome operation before.vars =
      before.vars.onUsers conf rows) : Chain after := by
  have hnotRead : operation ≠ .getPepper := by
    rcases users with rfl | ⟨rows, rfl⟩
    · simp
    · simp
  have hnotCopy : ∀ data, operation ≠ .setPreviousPepper data := by
    rcases users with rfl | ⟨rows, rfl⟩
    · simp
    · simp
  have hnotPublish : operation ≠ .publish := by
    rcases users with rfl | ⟨rows, rfl⟩
    · simp
    · simp
  have hkind : operation.isDirectory = true ∧ operation.isHash = false := by
    rcases users with rfl | ⟨rows, rfl⟩
    · exact ⟨rfl, rfl⟩
    · exact ⟨rfl, rfl⟩
  have hpending : 0 < before.pending.countP (·.isDirectory) :=
    List.countP_pos_iff.mpr ⟨operation, completes.mem_pending, hkind.1⟩
  have hunstarted := chain.unstarted hpending
  have hsingle := chain.single
  have hdirectory := completes.countP_balance (·.isDirectory)
  have hhash := completes.countP_balance (·.isHash)
  have hvars := completes.vars
  have hissued := completes.issued
  simp only [hkind.1, hkind.2, Bool.false_eq_true, if_true, if_false]
    at hdirectory hhash
  rw [hreact] at hvars hissued hdirectory hhash
  rcases Rotation.onUsers_cases conf before.vars rows with
    ⟨_, _, hreject⟩ | ⟨data, _, ⟨_, hsettle⟩ | ⟨hparams, hstart⟩⟩
  · exact chain.reject completes (hreact.trans hreject)
  · rw [hsettle] at hvars hissued
    rw [hsettle, countP_settle _ rfl] at hdirectory hhash
    refine ⟨?_, ?_, ?_, by omega, fun _ => by omega, ?_⟩
    · intro haccepted
      apply chain.copying_of completes hnotRead hnotCopy
      · rw [hvars]
        rfl
      · rw [hvars] at haccepted
        exact haccepted
    · rw [hvars]
      exact fun _ => .inl rfl
    · rw [hvars, hissued]
      exact fun _ hset _ =>
        .inr (List.mem_append_right _ (mem_settle_of hset rfl))
    · rw [hvars]
      intro haccepted
      have hbalanced := chain.balanced haccepted
      change _ + before.vars.workers.waiting.length =
        before.vars.workers.unresolved
      omega
  · rw [hstart] at hvars hissued hdirectory hhash
    obtain ⟨hhashes, hnone⟩ := countP_hashes
      (Workers.start before.vars.newPepper (updateParams data)).2
    rw [hnone] at hdirectory
    rw [hhashes] at hhash
    have hlength : (Workers.start before.vars.newPepper
        (updateParams data)).2.length = min jobs (updateParams data).length := by
      simp [Workers.start]
    have hpositive : 0 < (updateParams data).length :=
      List.length_pos_iff.mpr hparams
    rw [hlength] at hhash
    have hjobs : jobs = 5 := rfl
    refine ⟨?_, ?_, ?_, by omega, fun _ => by omega, ?_⟩
    · intro haccepted
      apply chain.copying_of completes hnotRead hnotCopy
      · rw [hvars]
      · rw [hvars] at haccepted
        exact haccepted
    · exact fun _ => .inr (.inr (by omega))
    · rw [hvars]
      exact chain.publishing_of completes hnotPublish
    · rw [hvars]
      intro haccepted
      have hbalanced := chain.balanced haccepted
      change _ + ((updateParams data).drop jobs).length =
        (updateParams data).length
      rw [List.length_drop]
      omega

/-- The pool of workers goes on until every row is inserted. -/
theorem Chain.hash (chain : Chain before) {task : HashOperation}
    (completes : Loop.Completes (Rotation.react env conf) before outcome
      (.hash task) rest after) : Chain after := by
  have hdirectory := completes.countP_balance (·.isDirectory)
  have hhash := completes.countP_balance (·.isHash)
  have hvars := completes.vars
  have hissued := completes.issued
  simp only [Rotation.react] at hdirectory hhash hvars hissued
  change _ + 0 = _ at hdirectory
  change _ + 1 = _ at hhash
  generalize hstep : before.vars.workers.react env outcome.fails
    before.vars.store task = step at hdirectory hhash hvars hissued
  have hsingle := chain.single
  have hpending : 0 < before.pending.countP (·.isHash) :=
    List.countP_pos_iff.mpr ⟨_, completes.mem_pending, rfl⟩
  have hidle : before.vars.rejected = false →
      before.pending.countP (·.isDirectory) = 0 := by
    intro haccepted
    have hbalanced := chain.balanced haccepted
    have hunstarted := chain.unstarted
    omega
  have hbalance : before.vars.rejected = false → step.verdict ≠ .rejected →
      before.vars.workers.Balanced step := by
    intro haccepted hverdict
    have hbalanced := chain.balanced haccepted
    rw [← hstep] at hverdict ⊢
    exact Workers.react_balanced _ _ _ _ (by omega) hverdict
  have hunresolved : before.vars.workers.unresolved = 0 →
      step.workers.unresolved = 0 := by
    intro h
    rw [← hstep]
    exact Workers.react_unresolved _ _ _ _ h
  rcases Rotation.onHashStep_cases before.vars step with
    ⟨hverdict, hafter⟩ | ⟨hverdict, hafter⟩ | ⟨hverdict, hafter⟩
  · obtain ⟨hhashes, hnone⟩ := countP_hashes step.issued
    rw [hafter] at hdirectory hhash hvars hissued
    rw [hnone] at hdirectory
    rw [hhashes] at hhash
    refine ⟨?_, ?_, ?_, by omega, ?_, ?_⟩
    · intro haccepted
      apply chain.copying_of completes (by simp) (by simp)
      · rw [hvars]
        rfl
      · rw [hvars] at haccepted
        exact haccepted
    · intro haccepted
      rw [hvars] at haccepted
      obtain ⟨htasks, hbusy, _, hgoing⟩ := hbalance haccepted (by simp [hverdict])
      have hbalanced := chain.balanced haccepted
      have hmore := hgoing hverdict
      refine .inr (.inr ?_)
      cases hnew : step.issued with
      | nil =>
          rw [hnew] at htasks hhash
          rw [hbusy hnew] at htasks
          simp only [List.length_nil] at htasks hhash
          omega
      | cons head tail =>
          rw [hnew, List.length_cons] at hhash
          omega
    · rw [hvars]
      exact chain.publishing_of completes (by simp)
    · intro h
      rw [hvars]
      exact hunresolved (chain.unstarted (by omega))
    · rw [hvars]
      intro haccepted
      obtain ⟨htasks, _, _, _⟩ := hbalance haccepted (by simp [hverdict])
      have hbalanced := chain.balanced haccepted
      change _ + step.workers.waiting.length = step.workers.unresolved
      omega
  · rw [hafter] at hdirectory hhash hvars hissued
    rw [countP_settle _ rfl] at hdirectory hhash
    refine ⟨?_, ?_, ?_, by omega, ?_, ?_⟩
    · intro haccepted
      apply chain.copying_of completes (by simp) (by simp)
      · rw [hvars]
        rfl
      · rw [hvars] at haccepted
        exact haccepted
    · rw [hvars]
      exact fun _ => .inl rfl
    · rw [hvars, hissued]
      exact fun _ hset _ =>
        .inr (List.mem_append_right _ (mem_settle_of hset rfl))
    · intro h
      rw [hvars]
      exact hunresolved (chain.unstarted (by omega))
    · rw [hvars]
      intro haccepted
      obtain ⟨htasks, _, hresolved, _⟩ :=
        hbalance haccepted (by simp [hverdict])
      have hbalanced := chain.balanced haccepted
      have hzero := hresolved hverdict
      change _ + step.workers.waiting.length = step.workers.unresolved
      omega
  · rw [hafter] at hdirectory hvars
    change _ = _ + 0 at hdirectory
    have hrejected : after.vars.rejected = true := by
      rw [hvars]
      rfl
    apply Chain.of_rejected hrejected (by omega)
    intro h
    rw [hvars]
    exact hunresolved (chain.unstarted (by omega))

/-- Whatever completes, the rotation stays on its way. -/
theorem chain_complete (chain : Chain before)
    (keys : before.vars.store .keys = keyRows pepper previous)
    (completes : Loop.Completes (Rotation.react env conf) before outcome
      operation rest after) : Chain after := by
  cases operation with
  | getPreviousPepper =>
      have hreact := @Rotation.react_getPreviousPepper env conf outcome
        before.vars pepper previous keys
      apply chain.aside completes _ (.inl rfl)
      · rw [hreact]
        split
        · rfl
        · rfl
      · rw [hreact]
        split
        · rfl
        · rfl
      · rw [completes.vars, hreact]
        exact ⟨rfl, rfl, rfl, rfl, rfl⟩
  | deleteOldHashes data =>
      rcases Rotation.react_deleteOldHashes env conf outcome data
        before.vars with hreact | hreact
      · apply chain.aside completes _ (.inr ⟨data, rfl⟩)
        · rw [hreact]
          rfl
        · rw [hreact]
          rfl
        · rw [completes.vars, hreact]
          exact ⟨rfl, rfl, rfl, rfl, rfl⟩
      · apply chain.aside completes _ (.inr ⟨data, rfl⟩)
        · rw [hreact]
          rfl
        · rw [hreact]
          rfl
        · rw [completes.vars, hreact]
          exact ⟨rfl, rfl, rfl, rfl, rfl⟩
  | getPepper =>
      have hreact := @Rotation.react_getPepper env conf outcome before.vars
        pepper previous keys
      split at hreact
      · exact chain.reject completes hreact
      · exact chain.getPepper completes hreact
  | setPreviousPepper data =>
      rcases @Rotation.react_setPreviousPepper env conf outcome before.vars
        pepper previous keys data with hreject | hset
      · exact chain.reject completes hreject
      · exact chain.setPreviousPepper completes hset
  | getUsers =>
      cases hfails : outcome.fails with
      | true =>
          apply chain.reject completes
          simp only [Rotation.react, hfails, if_true]
      | false =>
          cases hmatrix : conf.isMatrixDbAvailable with
          | true =>
              have hreact : Rotation.react env conf outcome .getUsers
                  before.vars =
                  (before.vars, [.getMatrixUsers outcome.users]) := by
                simp [Rotation.react, hfails, hmatrix]
              exact chain.getMatrixUsers completes hreact
          | false =>
              have hreact : Rotation.react env conf outcome .getUsers
                  before.vars = before.vars.onUsers conf outcome.users := by
                simp [Rotation.react, hfails, hmatrix]
              exact chain.onUsers completes (.inl rfl) hreact
  | getMatrixUsers rows =>
      cases hfails : outcome.fails with
      | true =>
          apply chain.reject completes
          simp only [Rotation.react, hfails, if_true]
      | false =>
          have hreact : Rotation.react env conf outcome (.getMatrixUsers rows)
              before.vars = before.vars.onUsers conf
                (filter conf rows outcome.entries) := by
            simp [Rotation.react, hfails]
          exact chain.onUsers completes (.inr ⟨rows, rfl⟩) hreact
  | hash task => exact chain.hash completes
  | publish =>
      rcases @Rotation.react_publish env conf outcome before.vars pepper
        previous keys with hreject | hpublish
      · exact chain.reject completes hreject
      · exact chain.publish completes hpublish

end TwakeKickstart.IdentityServer
