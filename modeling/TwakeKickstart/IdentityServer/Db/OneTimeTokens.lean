import TwakeKickstart.IdentityServer.Interleaving
import TwakeKickstart.IdentityServer.Validate.Email

namespace TwakeKickstart.IdentityServer

open Library Utils

/-! `verifyOneTimeToken`, called by several parties at the same time. -/

def verifyOneTimeToken (id : JsValue)
    (next : Except String JsValue → Procedure) : Procedure :=
  verifyToken id fun
    | .ok res => deleteToken id (next (.ok res))
    | .error text => next (.error text)

/-- A call, and what its caller is told: the data of the token, or why there
is none. -/
def settleToken (id : String) : Except String JsValue → Procedure
  | .ok res => .perform (.callback res (.str id)) fun _ => .done
  | .error text => refuseToken text

def redeem (id : String) : Procedure :=
  verifyOneTimeToken (.str id) (settleToken id)

abbrev TokenPool := Pool Effect Effect.Result World Unit

abbrev TokenEvent := PoolEvent Unit Choice

/-- Any number of calls for one token, step by step. -/
def tokenStep (env : Environment) (id : String) :
    TokenPool → TokenEvent → Option TokenPool :=
  Pool.step (fun _ => redeem id) (handle env)

def tokenStart (store : Store) : TokenPool where
  world := { store }
  threads := []

def isOver : Procedure → Bool
  | .done => true
  | _ => false

/-- At most one call is given the data, which is that of the token, and every
other one that has ended is refused. -/
structure ConsumedOnce (id : String) (rows : List OneTimeToken)
    (pool : TokenPool) : Prop where
  once : pool.world.granted.length ≤ 1
  data : ∀ grant ∈ pool.world.granted, grant.2 = .str id ∧
    ∃ row ∈ rows, row.id = id ∧ row.data = some grant.1
  refused : pool.threads.countP (isOver ·.2) =
    pool.world.granted.length + pool.world.sent.length

/-- The call has read the token and has not yet deleted it. -/
def holdsToken : Procedure → Bool
  | .perform .epoch _ => true
  | .perform (.db (.deleteEqual _ _ _)) _ => true
  | _ => false

def isRead : Effect → Bool
  | .db (.get _ _ _) => true
  | _ => false

def isDeletion : Effect → Bool
  | .db (.deleteEqual _ _ _) => true
  | _ => false

/-- Nobody reads a token that another call holds, and no deletion fails. -/
def OneAtATime (pool : TokenPool) : TokenEvent → Prop
  | .start _ => True
  | .act index choice => ∀ call effect next,
      pool.threads[index]? = some (call, .perform effect next) →
      (isRead effect = true →
        ∀ thread ∈ pool.threads, holdsToken thread.2 = false) ∧
      (isDeletion effect = true → choice.fails = false)

/-! How far a call has come. -/

inductive Redemption where
  | reading
  | checking (row : OneTimeToken)
  | deleting (res : JsValue)
  | resolving (res : JsValue)
  | rejecting (text : String)
  | ended

namespace Redemption

def program (id : String) : Redemption → Procedure
  | reading => redeem id
  | checking row =>
      onOneTimeTokens (fun
        | .ok res => deleteToken (.str id) (settleToken id (.ok res))
        | .error text => settleToken id (.error text)) (some [row])
  | deleting res => deleteToken (.str id) (settleToken id (.ok res))
  | resolving res => settleToken id (.ok res)
  | rejecting text => settleToken id (.error text)
  | ended => .done

def onRows : Option (List OneTimeToken) → Redemption
  | none => rejecting raisedText
  | some [] => rejecting raisedText
  | some (row :: _) => checking row

def onRow (now : Nat) (row : OneTimeToken) : Redemption :=
  if row.expires ≥ now then
    match row.data with
    | none => rejecting raisedText
    | some data => deleting data
  else rejecting ("Error: Token expired" ++ toString row.expires)

def readRows (id : String) : Effect :=
  .db (.get .oneTimeTokens ["data", "expires"] [("id", .str id)])

def deleteRow (id : String) : Effect :=
  .db (.deleteEqual .oneTimeTokens "id" (.str id))

/-- The next step of a call. -/
def advance (env : Environment) (id : String) (choice : Choice) :
    Redemption → World → Redemption × World
  | reading, world => (onRows (handle env choice (readRows id) world).1, world)
  | checking row, world => (onRow choice.now row, world)
  | deleting res, world =>
      (resolving res, (handle env choice (deleteRow id) world).2)
  | resolving res, world =>
      (ended, { world with granted := world.granted ++ [(res, .str id)] })
  | rejecting text, world =>
      (ended, (handle env choice (.send 400 (errMsg .invalidParam
        (.str ("Unknown or expired token" ++ text)))) world).2)
  | ended, world => (ended, world)

end Redemption

def threadsOf (id : String) (phases : List Redemption) :
    List (Unit × Procedure) :=
  phases.map fun phase => ((), phase.program id)

section Phases

variable {env : Environment} {id : String} {choice : Choice}
variable {phases : List Redemption} {pool after : TokenPool} {index : Nat}

theorem program_onRows (rows : Option (List OneTimeToken)) :
    (Redemption.onRows rows).program id =
      onOneTimeTokens (fun
        | .ok res => deleteToken (.str id) (settleToken id (.ok res))
        | .error text => settleToken id (.error text)) rows := by
  match rows with
  | none => rfl
  | some [] => rfl
  | some (_ :: _) => rfl

theorem program_onRow (now : Nat) (row : OneTimeToken) :
    (Redemption.onRow now row).program id =
      if row.expires ≥ now then
        match row.data with
        | none => settleToken id (.error raisedText)
        | some data => deleteToken (.str id) (settleToken id (.ok data))
      else settleToken id
        (.error ("Error: Token expired" ++ toString row.expires)) := by
  unfold Redemption.onRow
  split
  · cases row.data with
    | none => rfl
    | some data => rfl
  · rfl

theorem advance_spec {phase : Redemption} {effect : Effect}
    {next : effect.Result → Procedure} (world : World)
    (h : phase.program id = .perform effect next) :
    next (handle env choice effect world).1 =
        (phase.advance env id choice world).1.program id ∧
      (handle env choice effect world).2 =
        (phase.advance env id choice world).2 := by
  cases phase with
  | reading =>
      change Program.perform (Redemption.readRows id) _ = _ at h
      cases h
      exact ⟨(program_onRows _).symm, handle_get env choice _ _ _ world⟩
  | checking row =>
      change Program.perform Effect.epoch _ = _ at h
      cases h
      exact ⟨(program_onRow _ _).symm, rfl⟩
  | deleting res =>
      change Program.perform (Redemption.deleteRow id) _ = _ at h
      cases h
      exact ⟨rfl, rfl⟩
  | resolving res =>
      change Program.perform (Effect.callback res (.str id)) _ = _ at h
      cases h
      exact ⟨rfl, rfl⟩
  | rejecting text =>
      change Program.perform (Effect.send 400 _) _ = _ at h
      cases h
      exact ⟨rfl, rfl⟩
  | ended => cases h

theorem threadsOf_set (phases : List Redemption) (index : Nat)
    (phase : Redemption) :
    (threadsOf id phases).set index ((), phase.program id) =
      threadsOf id (phases.set index phase) := by
  rw [threadsOf, threadsOf, List.map_set]

theorem program_ne_fork (phase : Redemption) (child rest : Procedure) :
    phase.program id ≠ .fork child rest := by
  cases phase with
  | reading => exact fun h => by cases h
  | checking row => exact fun h => by cases h
  | deleting res => exact fun h => by cases h
  | resolving res => exact fun h => by cases h
  | rejecting text => exact fun h => by cases h
  | ended => exact fun h => by cases h

theorem act_phase (h : pool.threads = threadsOf id phases)
    (acts : pool.act (handle env) index choice = some after) :
    ∃ phase effect next, phases[index]? = some phase ∧
      pool.threads[index]? = some ((), .perform effect next) ∧
      phase.program id = .perform effect next ∧
      after.threads = threadsOf id
        (phases.set index (phase.advance env id choice pool.world).1) ∧
      after.world = (phase.advance env id choice pool.world).2 := by
  have hphase : ∀ call program, pool.threads[index]? = some (call, program) →
      ∃ phase, phases[index]? = some phase ∧ phase.program id = program := by
    intro call program hthread
    rw [h, threadsOf, List.getElem?_map] at hthread
    obtain ⟨phase, hphase, hprogram⟩ := Option.map_eq_some_iff.mp hthread
    exact ⟨phase, hphase, (Prod.mk.inj hprogram).2⟩
  rcases Pool.act_cases acts with
    ⟨call, effect, next, hthread, hworld, hthreads⟩ |
    ⟨call, child, rest, hthread, _⟩
  · obtain ⟨phase, hindex, hprogram⟩ := hphase _ _ hthread
    obtain ⟨hnext, hafter⟩ :=
      @advance_spec env id choice phase effect next pool.world hprogram
    refine ⟨phase, effect, next, hindex, hthread, hprogram, ?_, ?_⟩
    · rw [hthreads, hnext, h]
      exact threadsOf_set phases index _
    · rw [hworld, hafter]
  · obtain ⟨phase, _, hprogram⟩ := hphase _ _ hthread
    exact absurd hprogram (program_ne_fork phase child rest)

end Phases

/-! What the phases of the calls have in common with the table. -/

namespace Redemption

def holds : Redemption → Bool
  | checking _ => true
  | deleting _ => true
  | _ => false

def resolves : Redemption → Bool
  | resolving _ => true
  | _ => false

def isEnded : Redemption → Bool
  | ended => true
  | _ => false

/-- What a call has of the token is what the table had. -/
def Carries (id : String) (rows : List OneTimeToken) : Redemption → Prop
  | checking row => row ∈ rows ∧ row.id = id
  | deleting res => ∃ row ∈ rows, row.id = id ∧ row.data = some res
  | resolving res => ∃ row ∈ rows, row.id = id ∧ row.data = some res
  | _ => True

theorem holdsToken_program (id : String) (phase : Redemption) :
    holdsToken (phase.program id) = phase.holds := by
  cases phase <;> rfl

theorem isOver_program (id : String) (phase : Redemption) :
    isOver (phase.program id) = phase.isEnded := by
  cases phase <;> rfl

end Redemption

/-- The token is in the table as long as nobody has deleted it, and nobody is
given it before. -/
structure TokenInvariant (id : String) (rows : List OneTimeToken)
    (pool : TokenPool) (phases : List Redemption) : Prop where
  threads : pool.threads = threadsOf id phases
  once : phases.countP Redemption.holds + phases.countP Redemption.resolves +
    pool.world.granted.length ≤ 1
  stored : ∀ row ∈ pool.world.store .oneTimeTokens, row.id = id →
    row ∈ rows ∧ phases.countP Redemption.resolves +
      pool.world.granted.length = 0
  carries : ∀ phase ∈ phases, phase.Carries id rows
  data : ∀ grant ∈ pool.world.granted, grant.2 = .str id ∧
    ∃ row ∈ rows, row.id = id ∧ row.data = some grant.1
  ended : phases.countP Redemption.isEnded =
    pool.world.granted.length + pool.world.sent.length

section Invariant

variable {env : Environment} {id : String} {rows : List OneTimeToken}
variable {phases : List Redemption} {pool after : TokenPool}

theorem TokenInvariant.consumedOnce
    (invariant : TokenInvariant id rows pool phases) :
    ConsumedOnce id rows pool where
  once := by
    have honce := invariant.once
    omega
  data := invariant.data
  refused := by
    rw [← invariant.ended, invariant.threads, threadsOf, List.countP_map]
    refine List.countP_congr fun phase _ => ?_
    rw [Function.comp_apply, Redemption.isOver_program]

theorem tokenInvariant_start (id : String) (store : Store) :
    TokenInvariant id (store .oneTimeTokens) (tokenStart store) [] where
  threads := rfl
  once := Nat.zero_le _
  stored := fun row hrow _ => ⟨hrow, rfl⟩
  carries := by
    intro phase hphase
    cases hphase
  data := by
    intro grant hgrant
    cases hgrant
  ended := rfl

theorem TokenInvariant.begin
    (invariant : TokenInvariant id rows pool phases) :
    TokenInvariant id rows
      { pool with threads := pool.threads ++ [((), redeem id)] }
      (phases ++ [.reading]) where
  threads := by
    rw [invariant.threads, threadsOf, threadsOf, List.map_append]
    rfl
  once := by
    have honce := invariant.once
    rw [List.countP_append, List.countP_append]
    exact honce
  stored := by
    intro row hrow hid
    obtain ⟨hmem, hnone⟩ := invariant.stored row hrow hid
    rw [List.countP_append]
    exact ⟨hmem, hnone⟩
  carries := by
    intro phase hphase
    rcases List.mem_append.mp hphase with hold | hnew
    · exact invariant.carries phase hold
    · rw [List.mem_singleton.mp hnew]
      trivial
  data := invariant.data
  ended := by
    rw [List.countP_append]
    exact invariant.ended

theorem onRows_read (named : id ≠ "") (choice : Choice) (world : World) :
    (∃ row ∈ world.store .oneTimeTokens, row.id = id ∧
      Redemption.onRows (handle env choice (Redemption.readRows id) world).1 =
        .checking row) ∨
    Redemption.onRows (handle env choice (Redemption.readRows id) world).1 =
      .rejecting raisedText := by
  cases hfails : choice.fails with
  | true =>
      refine .inr ?_
      simp only [handle, Redemption.readRows, hfails, if_true]
      rfl
  | false =>
      simp only [handle, Redemption.readRows, hfails, Bool.false_eq_true,
        if_false, execute_get, resolve_cons_str, if_neg named, resolve_nil,
        Option.map_some]
      generalize hfound : (world.store .oneTimeTokens).filter _ = found
      cases found with
      | nil => exact .inr rfl
      | cons row rest =>
          have hmem : row ∈ row :: rest := List.mem_cons_self
          rw [← hfound, List.mem_filter] at hmem
          refine .inl ⟨row, hmem.1, ?_, rfl⟩
          simpa [selectsAll, cell] using hmem.2

theorem onRow_cases (now : Nat) (row : OneTimeToken) :
    (∃ res, row.data = some res ∧ Redemption.onRow now row = .deleting res) ∨
    ∃ text, Redemption.onRow now row = .rejecting text := by
  unfold Redemption.onRow
  split
  · cases hdata : row.data with
    | none => exact .inr ⟨_, rfl⟩
    | some res => exact .inl ⟨res, rfl, rfl⟩
  · exact .inr ⟨_, rfl⟩

theorem deleteRow_spec (named : id ≠ "") {choice : Choice}
    (succeeds : choice.fails = false) (world : World) :
    (handle env choice (Redemption.deleteRow id) world).2 =
      world.setTable .oneTimeTokens
        ((world.store .oneTimeTokens).filter fun row => row.id != id) := by
  have hguard : refusesDelete env.driver.engine (.str id) = false := by
    unfold refusesDelete
    cases env.driver.engine with
    | sqlite => rfl
    | pg => simpa using named
  simp only [handle, Redemption.deleteRow, succeeds, Bool.false_eq_true,
    if_false, execute, hguard]
  rfl

section Step

variable {choice : Choice} {index : Nat} {before later : List Redemption}
variable {phase : Redemption}

theorem TokenInvariant.others
    (invariant : TokenInvariant id rows pool (before ++ phase :: later))
    {next : Redemption} (carries : next.Carries id rows) :
    ∀ other ∈ before ++ next :: later, other.Carries id rows := by
  intro other hother
  rcases List.mem_append.mp hother with hbefore | hlater
  · exact invariant.carries other (List.mem_append_left _ hbefore)
  · rcases List.mem_cons.mp hlater with rfl | hlater
    · exact carries
    · exact invariant.carries other
        (List.mem_append_right _ (List.mem_cons_of_mem _ hlater))

theorem TokenInvariant.own
    (invariant : TokenInvariant id rows pool (before ++ phase :: later)) :
    phase.Carries id rows :=
  invariant.carries phase
    (List.mem_append_right _ List.mem_cons_self)

attribute [local simp] List.countP_append List.countP_cons Redemption.holds
  Redemption.resolves Redemption.isEnded

/-- A call that holds nothing turns to refusing, or one that holds the token
goes on or refuses; the world is as before. -/
theorem TokenInvariant.quiet
    (invariant : TokenInvariant id rows pool (before ++ phase :: later))
    {next : Redemption} (threads : after.threads =
      threadsOf id (before ++ next :: later))
    (world : after.world = pool.world) (carries : next.Carries id rows)
    (lighter : next.holds = true → phase.holds = true)
    (open' : phase.resolves = false ∧ phase.isEnded = false)
    (opened : next.resolves = false ∧ next.isEnded = false) :
    TokenInvariant id rows after (before ++ next :: later) where
  threads := threads
  once := by
    have honce := invariant.once
    rw [world]
    simp only [List.countP_append, List.countP_cons, open'.1, opened.1,
      Bool.false_eq_true, if_false] at honce ⊢
    split
    · rename_i hholds
      rw [if_pos (lighter hholds)] at honce
      exact honce
    · omega
  stored := by
    rw [world]
    intro row hrow hid
    obtain ⟨hmem, hnone⟩ := invariant.stored row hrow hid
    refine ⟨hmem, ?_⟩
    simp only [List.countP_append, List.countP_cons, open'.1, opened.1]
      at hnone ⊢
    exact hnone
  carries := invariant.others carries
  data := by
    rw [world]
    exact invariant.data
  ended := by
    have hended := invariant.ended
    rw [world]
    simp only [List.countP_append, List.countP_cons, open'.2, opened.2]
      at hended ⊢
    exact hended

theorem TokenInvariant.read
    (invariant : TokenInvariant id rows pool (before ++ .reading :: later))
    (free : (before ++ Redemption.reading :: later).countP Redemption.holds = 0)
    {row : OneTimeToken} (found : row ∈ pool.world.store .oneTimeTokens)
    (named : row.id = id)
    (threads : after.threads =
      threadsOf id (before ++ .checking row :: later))
    (world : after.world = pool.world) :
    TokenInvariant id rows after (before ++ .checking row :: later) := by
  obtain ⟨hmem, hnone⟩ := invariant.stored row found named
  refine ⟨threads, ?_, ?_, invariant.others ⟨hmem, named⟩, ?_, ?_⟩
  · rw [world]
    simp only [List.countP_append, List.countP_cons] at free hnone ⊢
    simp only [Redemption.holds, Redemption.resolves, Bool.false_eq_true,
      if_false, if_true] at free hnone ⊢
    omega
  · rw [world]
    intro other hother hid
    refine ⟨(invariant.stored other hother hid).1, ?_⟩
    simpa using hnone
  · rw [world]
    exact invariant.data
  · have hended := invariant.ended
    rw [world]
    simpa using hended

theorem TokenInvariant.delete {res : JsValue} (named : id ≠ "")
    (succeeds : choice.fails = false)
    (invariant : TokenInvariant id rows pool
      (before ++ .deleting res :: later))
    (threads : after.threads =
      threadsOf id (before ++ .resolving res :: later))
    (world : after.world =
      (handle env choice (Redemption.deleteRow id) pool.world).2) :
    TokenInvariant id rows after (before ++ .resolving res :: later) := by
  rw [deleteRow_spec named succeeds] at world
  refine ⟨threads, ?_, ?_, invariant.others invariant.own, ?_, ?_⟩
  · have honce := invariant.once
    rw [world, World.setTable_granted]
    simp at honce ⊢
    omega
  · rw [world, World.setTable_same]
    intro row hrow hid
    have hother := (List.mem_filter.mp hrow).2
    rw [hid, bne_self_eq_false] at hother
    cases hother
  · rw [world, World.setTable_granted]
    exact invariant.data
  · have hended := invariant.ended
    rw [world, World.setTable_granted, World.setTable_sent]
    simpa using hended

theorem TokenInvariant.resolve {res : JsValue}
    (invariant : TokenInvariant id rows pool
      (before ++ .resolving res :: later))
    (threads : after.threads = threadsOf id (before ++ .ended :: later))
    (world : after.world = { pool.world with
      granted := pool.world.granted ++ [(res, .str id)] }) :
    TokenInvariant id rows after (before ++ .ended :: later) := by
  refine ⟨threads, ?_, ?_, invariant.others trivial, ?_, ?_⟩
  · have honce := invariant.once
    rw [world]
    simp at honce ⊢
    omega
  · rw [world]
    intro row hrow hid
    obtain ⟨hmem, hnone⟩ := invariant.stored row hrow hid
    simp at hnone
  · rw [world]
    intro grant hgrant
    rcases List.mem_append.mp hgrant with hold | hnew
    · exact invariant.data grant hold
    · rw [List.mem_singleton.mp hnew]
      exact ⟨rfl, invariant.own⟩
  · have hended := invariant.ended
    rw [world]
    simp at hended ⊢
    omega

theorem TokenInvariant.reject {text : String} {answer : Nat × JsValue}
    (invariant : TokenInvariant id rows pool
      (before ++ .rejecting text :: later))
    (threads : after.threads = threadsOf id (before ++ .ended :: later))
    (world : after.world = { pool.world with
      sent := pool.world.sent ++ [answer] }) :
    TokenInvariant id rows after (before ++ .ended :: later) := by
  refine ⟨threads, ?_, ?_, invariant.others trivial, ?_, ?_⟩
  · have honce := invariant.once
    rw [world]
    simpa using honce
  · rw [world]
    intro row hrow hid
    obtain ⟨hmem, hnone⟩ := invariant.stored row hrow hid
    exact ⟨hmem, by simpa using hnone⟩
  · rw [world]
    exact invariant.data
  · have hended := invariant.ended
    rw [world]
    simp at hended ⊢
    omega

end Step

theorem countP_holds (invariant : TokenInvariant id rows pool phases)
    (free : ∀ thread ∈ pool.threads, holdsToken thread.2 = false) :
    phases.countP Redemption.holds = 0 := by
  refine List.countP_eq_zero.mpr fun phase hphase => ?_
  have hthread := free ((), phase.program id) (by
    rw [invariant.threads]
    exact List.mem_map_of_mem hphase)
  rw [Redemption.holdsToken_program] at hthread
  rw [hthread]
  exact Bool.false_ne_true

theorem TokenInvariant.act (named : id ≠ "") {index : Nat} {choice : Choice}
    (invariant : TokenInvariant id rows pool phases)
    (permitted : OneAtATime pool (.act index choice))
    (acts : pool.act (handle env) index choice = some after) :
    ∃ phases, TokenInvariant id rows after phases := by
  obtain ⟨phase, effect, next, hindex, hthread, hprogram, hthreads, hworld⟩ :=
    act_phase invariant.threads acts
  obtain ⟨hfree, hsucceeds⟩ := permitted _ _ _ hthread
  obtain ⟨before, later, rfl, hset⟩ := split_at_index hindex
  rw [hset] at hthreads
  cases phase with
  | reading =>
      change Program.perform (Redemption.readRows id) _ = _ at hprogram
      cases hprogram
      rw [Redemption.advance] at hthreads hworld
      rcases onRows_read named choice pool.world with
        ⟨row, hfound, hid, hnext⟩ | hnext
      · rw [hnext] at hthreads
        exact ⟨_, invariant.read (countP_holds invariant (hfree rfl)) hfound hid
          hthreads hworld⟩
      · rw [hnext] at hthreads
        exact ⟨_, invariant.quiet hthreads hworld trivial
          (fun h => by cases h) ⟨rfl, rfl⟩ ⟨rfl, rfl⟩⟩
  | checking row =>
      rw [Redemption.advance] at hthreads hworld
      rcases onRow_cases choice.now row with ⟨res, hdata, hnext⟩ | ⟨text, hnext⟩
      · rw [hnext] at hthreads
        exact ⟨_, invariant.quiet hthreads hworld
          ⟨row, invariant.own.1, invariant.own.2, hdata⟩ (fun _ => rfl)
          ⟨rfl, rfl⟩ ⟨rfl, rfl⟩⟩
      · rw [hnext] at hthreads
        exact ⟨_, invariant.quiet hthreads hworld trivial
          (fun h => by cases h) ⟨rfl, rfl⟩ ⟨rfl, rfl⟩⟩
  | deleting res =>
      change Program.perform (Redemption.deleteRow id) _ = _ at hprogram
      cases hprogram
      exact ⟨_, invariant.delete named (hsucceeds rfl) hthreads hworld⟩
  | resolving res => exact ⟨_, invariant.resolve hthreads hworld⟩
  | rejecting text => exact ⟨_, invariant.reject hthreads hworld⟩
  | ended => cases hprogram

end Invariant

/-- In every run in which the calls read one at a time and no deletion fails,
a token is given away at most once. -/
theorem token_consumed_once (env : Environment) {id : String}
    (named : id ≠ "") {store : Store} {pool : TokenPool}
    (reached : Reachable (tokenStep env id) OneAtATime (tokenStart store)
      pool) :
    ConsumedOnce id (store .oneTimeTokens) pool := by
  have hinvariant : ∃ phases,
      TokenInvariant id (store .oneTimeTokens) pool phases := by
    refine reached.invariant (fun pool => ∃ phases,
      TokenInvariant id (store .oneTimeTokens) pool phases)
      ⟨[], tokenInvariant_start id store⟩ ?_
    rintro before event after ⟨phases, invariant⟩ permitted stepped
    cases event with
    | start call =>
        cases stepped
        exact ⟨_, invariant.begin⟩
    | act index choice => exact invariant.act named permitted stepped
  obtain ⟨phases, invariant⟩ := hinvariant
  exact invariant.consumedOnce

/-! Two calls for one token. -/

def inviteToken : OneTimeToken where
  id := "t0k3n"
  expires := 600000
  data := some (.obj [("sid", .str "s1")])

def tokenStore : Store :=
  Function.update emptyStore .oneTimeTokens [inviteToken]

def oneAtATime (pool : TokenPool) : TokenEvent → Bool
  | .start _ => true
  | .act index choice =>
      match pool.threads[index]? with
      | some (_, .perform effect _) =>
          (!isRead effect ||
            pool.threads.all fun thread => !holdsToken thread.2) &&
          (!isDeletion effect || !choice.fails)
      | _ => true

theorem oneAtATime_sound (pool : TokenPool) (event : TokenEvent)
    (h : oneAtATime pool event = true) : OneAtATime pool event := by
  cases event with
  | start call => trivial
  | act index choice =>
      intro call effect next hthread
      rw [oneAtATime, hthread] at h
      simp only [Bool.and_eq_true, Bool.or_eq_true, Bool.not_eq_true',
        List.all_eq_true] at h
      refine ⟨fun hread => ?_, fun hdeletion => ?_⟩
      · rw [hread] at h
        exact h.1.resolve_left Bool.noConfusion
      · rw [hdeletion] at h
        exact h.2.resolve_left Bool.noConfusion

def atNoon : Choice := ⟨false, 43200⟩

theorem token_consumed_once_two :
    ∃ pool, Reachable (tokenStep (.offline id) "t0k3n") OneAtATime
        (tokenStart tokenStore) pool ∧
      pool.world.granted.length = 1 ∧ pool.world.sent.length = 1 ∧
      ConsumedOnce "t0k3n" (tokenStore .oneTimeTokens) pool := by
  have hrun : ∃ pool, runEvents (tokenStep (.offline id) "t0k3n") oneAtATime
      [.start (), .start (), .act 0 atNoon, .act 0 atNoon, .act 0 atNoon,
        .act 1 atNoon, .act 0 atNoon, .act 1 atNoon]
      (tokenStart tokenStore) = some pool ∧
      pool.world.granted.length = 1 ∧ pool.world.sent.length = 1 :=
    ⟨_, rfl, rfl, rfl⟩
  obtain ⟨pool, hrun, hgranted, hsent⟩ := hrun
  have hreached := reachable_of_runEvents oneAtATime_sound hrun
  exact ⟨pool, hreached, hgranted, hsent,
    token_consumed_once (.offline id) (by decide) hreached⟩

/-- Two calls that read before either deletes are both given the data, and so
are two of which the first fails to delete. -/
theorem token_consumed_twice :
    (∃ pool, Reachable (tokenStep (.offline id) "t0k3n") (fun _ _ => True)
        (tokenStart tokenStore) pool ∧
      ¬ ConsumedOnce "t0k3n" (tokenStore .oneTimeTokens) pool) ∧
    ∃ pool, runEvents (tokenStep (.offline id) "t0k3n") (fun _ _ => true)
        [.start (), .act 0 atNoon, .act 0 atNoon, .act 0 ⟨true, 43200⟩,
          .act 0 atNoon, .start (), .act 1 atNoon, .act 1 atNoon,
          .act 1 atNoon, .act 1 atNoon]
        (tokenStart tokenStore) = some pool ∧
      ¬ ConsumedOnce "t0k3n" (tokenStore .oneTimeTokens) pool := by
  constructor
  · have hrun : ∃ pool, runEvents (tokenStep (.offline id) "t0k3n")
        (fun _ _ => true)
        [.start (), .start (), .act 0 atNoon, .act 1 atNoon, .act 0 atNoon,
          .act 1 atNoon, .act 0 atNoon, .act 1 atNoon, .act 0 atNoon,
          .act 1 atNoon]
        (tokenStart tokenStore) = some pool ∧
        pool.world.granted.length = 2 := ⟨_, rfl, rfl⟩
    obtain ⟨pool, hrun, hgranted⟩ := hrun
    refine ⟨pool, reachable_of_runEvents (fun _ _ _ => trivial) hrun, ?_⟩
    intro consumed
    have honce := consumed.once
    rw [hgranted] at honce
    omega
  · refine ⟨_, rfl, fun consumed => ?_⟩
    exact absurd consumed.once (by decide)

end TwakeKickstart.IdentityServer
