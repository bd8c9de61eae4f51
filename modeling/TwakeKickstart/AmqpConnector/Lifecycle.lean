import TwakeKickstart.AmqpConnector.Connector

namespace TwakeKickstart.AmqpConnector

open Library

/-! What the connector has at any one time, and what it leaves when it is
closed. -/

namespace Operation

/-- The operation is one of an attempt in flight, its clean-up included. -/
def isAttempt : Operation → Bool
  | .connect _ => true
  | .createChannel task _ | .setup task _ _ => task != .recreation
  | .cleanup _ after => after != .close

def isClose : Operation → Bool
  | .cleanup _ after => after == .close
  | _ => false

def isConnect : Operation → Bool
  | .connect _ => true
  | _ => false

def task? : Operation → Option Task
  | .connect attempt => some (.attempt attempt)
  | .createChannel task _ | .setup task _ _ => some task
  | .cleanup _ _ => none

/-- The operation cleans up after a reconnection that has failed. -/
def isFailed : Operation → Bool
  | .cleanup _ after => after == .failed .reconnect
  | _ => false

/-- Settled in this way, the operation makes its caller fail. -/
def fails (connector : Connector) (ok : Bool) : Operation → Bool
  | .setup _ _ _ => !ok || connector.channel.isNone
  | _ => !ok

end Operation

def attempts (pending : List Operation) : Nat :=
  pending.countP Operation.isAttempt

def closes (pending : List Operation) : Nat :=
  pending.countP Operation.isClose

/-- At most one of a pending timer, an attempt in flight and an open
connection; an attempt may have the connection that it sets up. -/
structure AtMostOne (loop : ConnectorLoop) : Prop where
  attempts : loop.vars.timers.length + attempts loop.pending ≤ 1
  connections : loop.vars.timers.length +
    loop.pending.countP Operation.isConnect +
    loop.vars.openConnections.length ≤ 1
  own : 0 < AmqpConnector.attempts loop.pending →
    ∀ connection ∈ loop.vars.openConnections,
      connection ∉ loop.vars.connectionHandlers

/-- Nothing that the connector has opened is left. -/
structure Closed (connector : Connector) : Prop where
  timers : connector.timers = []
  connections : connector.openConnections = []
  channels : connector.openChannels = []
  consumers : connector.consumers = []
  state : connector.connectionState = .disconnected

/-- Before `close()` is called, a channel is created again without failure;
after that, no reconnection fails or is still cleaning up after its failure. -/
structure Steady.Settling (config : ReconnectionConfig)
    (connector : Connector) (ok : Bool) (operation : Operation) : Prop where
  recreation : operation.task? = some .recreation →
    operation.fails connector ok = true →
    connector.isIntentionalClose = true ∨ config.enabled = false
  reconnection : operation.task? = some (.attempt .reconnect) →
    operation.fails connector ok = true → connector.isIntentionalClose = false
  cleanup : operation.isFailed = true → connector.isIntentionalClose = false

/-- This is asked for while there are retries left. -/
def Steady (config : ReconnectionConfig) (loop : ConnectorLoop) :
    ConnectorEvent → Prop
  | .settle index ok => ∀ operation ∈ loop.pending[index]?,
      config.exceeded loop.vars = false →
      Steady.Settling config loop.vars ok operation
  | _ => True

/-! The invariant. -/

/-- What does not depend on the state that `close()` ends in. -/
structure Stable (connector : Connector) (pending : List Operation) :
    Prop where
  fresh : ∀ connection, connection ∈ connector.openConnections ∨
    connection ∈ connector.closing ∨
    connection ∈ connector.connectionHandlers ∨
    connector.connection = some connection → connection < connector.next
  oneOpen : connector.openConnections.length ≤ 1
  oneAttempt : connector.timers.length + attempts pending ≤ 1
  waiting : connector.timers ≠ [] → connector.openConnections = []
  connecting : ∀ attempt, .connect attempt ∈ pending →
    connector.openConnections = [] ∧ closes pending = 0
  held : ∀ connection ∈ connector.openConnections,
    connector.connection = some connection ∨ connection ∈ connector.closing
  underway : ∀ connection ∈ connector.openConnections,
    connection ∈ connector.closing →
    ∃ after, .cleanup (.closeConnection connection) after ∈ pending
  target : ∀ connection after,
    .cleanup (.closeConnection connection) after ∈ pending →
    ∀ other ∈ connector.openConnections, other = connection
  handled : ∀ connection ∈ connector.openConnections,
    connection ∈ connector.connectionHandlers →
    connector.timers = [] ∧ attempts pending = 0
  armed : ∀ timer ∈ connector.timers,
    connector.reconnectTimeoutId = some timer
  channels : ∀ channel ∈ connector.openChannels,
    channel.2 ∈ connector.openConnections
  consumers : ∀ consumer ∈ connector.consumers,
    connector.isOpen consumer.2 = true
  unintended : connector.isIntentionalClose = false → closes pending = 0

structure Invariant (connector : Connector) (pending : List Operation) :
    Prop where
  stable : Stable connector pending
  intended : connector.isIntentionalClose = true → connector.timers = [] ∧
    (connector.openConnections = [] ∧
        connector.connectionState = .disconnected ∨
      0 < attempts pending + closes pending)

section Pending

variable {connector : Connector} {pending other : List Operation}
variable {operation : Operation} {rest : List Operation}

theorem attempts_cons (operation : Operation) (rest : List Operation) :
    attempts (operation :: rest) =
      attempts rest + if operation.isAttempt = true then 1 else 0 :=
  List.countP_cons

theorem closes_cons (operation : Operation) (rest : List Operation) :
    closes (operation :: rest) =
      closes rest + if operation.isClose = true then 1 else 0 :=
  List.countP_cons

theorem attempts_snoc (rest : List Operation) (operation : Operation) :
    attempts (rest ++ [operation]) = attempts (operation :: rest) :=
  (List.perm_append_singleton operation rest).countP_eq _

theorem closes_snoc (rest : List Operation) (operation : Operation) :
    closes (rest ++ [operation]) = closes (operation :: rest) :=
  (List.perm_append_singleton operation rest).countP_eq _

theorem attempts_pos (h : operation ∈ pending)
    (isAttempt : operation.isAttempt = true) : 0 < attempts pending :=
  List.countP_pos_iff.mpr ⟨operation, h, isAttempt⟩

theorem cleanup_pos {call : CleanupCall} {after : After}
    (h : .cleanup call after ∈ pending) :
    0 < attempts pending + closes pending := by
  by_cases hafter : after = .close
  · have hpos : 0 < closes pending :=
      List.countP_pos_iff.mpr ⟨_, h, by simp [Operation.isClose, hafter]⟩
    omega
  · have hpos := attempts_pos h (by simp [Operation.isAttempt, hafter])
    omega

theorem Stable.perm (stable : Stable connector pending)
    (perm : pending.Perm other) : Stable connector other := by
  have hattempts : attempts other = attempts pending :=
    (perm.countP_eq _).symm
  have hcloses : closes other = closes pending := (perm.countP_eq _).symm
  refine { stable with
    oneAttempt := ?_
    connecting := ?_
    underway := ?_
    target := ?_
    handled := ?_
    unintended := ?_ }
  · rw [hattempts]
    exact stable.oneAttempt
  · intro attempt hconnect
    rw [hcloses]
    exact stable.connecting attempt (perm.mem_iff.mpr hconnect)
  · intro connection hopen hclosing
    obtain ⟨after, hmem⟩ := stable.underway connection hopen hclosing
    exact ⟨after, perm.mem_iff.mp hmem⟩
  · intro connection after hmem
    exact stable.target connection after (perm.mem_iff.mpr hmem)
  · rw [hattempts]
    exact stable.handled
  · rw [hcloses]
    exact stable.unintended

theorem Stable.settled (stable : Stable connector (operation :: rest))
    (closesNone : ∀ connection ∈ connector.openConnections, ∀ after,
      operation ≠ .cleanup (.closeConnection connection) after) :
    Stable connector rest := by
  have hattempts : attempts rest ≤ attempts (operation :: rest) := by
    rw [attempts_cons]
    omega
  have hcloses : closes rest ≤ closes (operation :: rest) := by
    rw [closes_cons]
    omega
  refine { stable with
    oneAttempt := ?_
    connecting := ?_
    underway := ?_
    target := ?_
    handled := ?_
    unintended := ?_ }
  · have hone := stable.oneAttempt
    omega
  · intro attempt hconnect
    obtain ⟨hopen, hnone⟩ :=
      stable.connecting attempt (List.mem_cons_of_mem _ hconnect)
    exact ⟨hopen, by omega⟩
  · intro connection hopen hclosing
    obtain ⟨after, hmem⟩ := stable.underway connection hopen hclosing
    rcases List.mem_cons.mp hmem with hsame | hrest
    · exact absurd hsame.symm (closesNone connection hopen after)
    · exact ⟨after, hrest⟩
  · intro connection after hmem
    exact stable.target connection after (List.mem_cons_of_mem _ hmem)
  · intro connection hopen hhandled
    obtain ⟨htimers, hnone⟩ := stable.handled connection hopen hhandled
    exact ⟨htimers, by omega⟩
  · intro hunintended
    have hnone := stable.unintended hunintended
    omega

/-- No attempt is in flight and no timer pending, and the open connection is
not one that has been handed over. -/
structure Free (connector : Connector) (pending : List Operation) : Prop where
  timers : connector.timers = []
  attempts : attempts pending = 0
  handlers : ∀ connection ∈ connector.openConnections,
    connection ∉ connector.connectionHandlers

theorem Stable.free (stable : Stable connector (operation :: rest))
    (isAttempt : operation.isAttempt = true) : Free connector rest := by
  have hone := stable.oneAttempt
  have hcount := attempts_cons operation rest
  rw [if_pos isAttempt] at hcount
  refine ⟨List.eq_nil_of_length_eq_zero (by omega), by omega, ?_⟩
  intro connection hopen hhandled
  have hnone := (stable.handled connection hopen hhandled).2
  omega

theorem Stable.issue (stable : Stable connector rest)
    (connectsNone : ∀ attempt, operation ≠ .connect attempt)
    (closesNone : ∀ connection after,
      operation ≠ .cleanup (.closeConnection connection) after)
    (free : operation.isAttempt = true → Free connector rest)
    (isClosing : operation.isClose = true →
      connector.isIntentionalClose = true ∧
        connector.openConnections ≠ []) :
    Stable connector (rest ++ [operation]) := by
  refine Stable.perm ?_ (List.perm_append_singleton operation rest).symm
  refine { stable with
    oneAttempt := ?_
    connecting := ?_
    underway := ?_
    target := ?_
    handled := ?_
    unintended := ?_ }
  · rw [attempts_cons]
    split
    · rename_i hattempt
      obtain ⟨htimers, hnone, _⟩ := free hattempt
      rw [htimers, hnone]
      exact Nat.le_refl 1
    · exact stable.oneAttempt
  · intro attempt hconnect
    rcases List.mem_cons.mp hconnect with hsame | hrest
    · exact absurd hsame.symm (connectsNone attempt)
    · obtain ⟨hopen, hnone⟩ := stable.connecting attempt hrest
      refine ⟨hopen, ?_⟩
      rw [closes_cons, if_neg fun hclose => (isClosing hclose).2 hopen]
      exact hnone
  · intro connection hopen hclosing
    obtain ⟨after, hmem⟩ := stable.underway connection hopen hclosing
    exact ⟨after, List.mem_cons_of_mem _ hmem⟩
  · intro connection after hmem
    rcases List.mem_cons.mp hmem with hsame | hrest
    · exact absurd hsame.symm (closesNone connection after)
    · exact stable.target connection after hrest
  · intro connection hopen hhandled
    obtain ⟨htimers, hnone⟩ := stable.handled connection hopen hhandled
    refine ⟨htimers, ?_⟩
    rw [attempts_cons, if_neg fun hattempt =>
      (free hattempt).handlers connection hopen hhandled]
    exact hnone
  · intro hunintended
    rw [closes_cons, if_neg fun hclose => ?_]
    · exact stable.unintended hunintended
    · rw [(isClosing hclose).1] at hunintended
      cases hunintended

end Pending

/-! `cleanupResources`. -/

section Cleanup

variable {config : ReconnectionConfig} {connector : Connector}
variable {rest : List Operation} {after : After}

/-- The clean-up may go on: an attempt is the only one, a close is intentional,
and no reconnection fails after a close. -/
structure Cleans (config : ReconnectionConfig) (connector : Connector)
    (rest : List Operation) (after : After) : Prop where
  attempt : after ≠ .close → Free connector rest
  close : connector.isIntentionalClose = false → after ≠ .close
  exceeded : after = .failed .reconnect →
    connector.isIntentionalClose = true → config.exceeded connector = true

theorem scheduleReconnection_exceeded
    (h : config.exceeded connector = true) :
    connector.scheduleReconnection config =
      { connector with connectionState := .disconnected } := by
  unfold Connector.scheduleReconnection
  rw [if_pos h]

@[simp] theorem scheduleReconnection_isIntentionalClose :
    (connector.scheduleReconnection config).isIntentionalClose =
      connector.isIntentionalClose := by
  unfold Connector.scheduleReconnection
  split
  · rfl
  · rfl

theorem Stable.schedule (stable : Stable connector rest)
    (timers : connector.timers = []) (noAttempt : attempts rest = 0)
    (noneOpen : connector.openConnections = []) :
    Stable (connector.scheduleReconnection config) rest := by
  unfold Connector.scheduleReconnection
  split
  · exact { stable with }
  · refine { stable with
      fresh := ?_
      oneAttempt := ?_
      waiting := fun _ => noneOpen
      handled := ?_
      armed := ?_ }
    · intro connection hmem
      exact Nat.lt_succ_of_lt (stable.fresh connection hmem)
    · rw [timers, noAttempt]
      exact Nat.le_refl 1
    · intro connection hopen
      change connection ∈ connector.openConnections at hopen
      rw [noneOpen] at hopen
      cases hopen
    · intro timer htimer
      rw [timers, List.nil_append, List.mem_singleton] at htimer
      rw [htimer]

theorem Stable.forget (stable : Stable connector rest)
    (gone : ∀ connection ∈ connector.openConnections,
      connector.connection = some connection →
      connection ∈ connector.closing) :
    Stable { connector with
      channel := none, connection := none, connectionState := .disconnected }
      rest := by
  refine { stable with fresh := ?_, held := ?_ }
  · rintro connection (hopen | hclosing | hhandled | hnone)
    · exact stable.fresh connection (.inl hopen)
    · exact stable.fresh connection (.inr (.inl hclosing))
    · exact stable.fresh connection (.inr (.inr (.inl hhandled)))
    · cases hnone
  · intro connection hopen
    rcases stable.held connection hopen with hheld | hclosing
    · exact .inr (gone connection hopen hheld)
    · exact .inr hclosing

theorem Stable.forgetResources (stable : Stable connector rest)
    (cleans : Cleans config connector rest after)
    (timers : connector.timers = [])
    (gone : ∀ connection ∈ connector.openConnections,
      connector.connection = some connection →
      connection ∈ connector.closing) :
    Invariant (connector.forgetResources config after).1
      (rest ++ (connector.forgetResources config after).2) := by
  have hforgotten := stable.forget gone
  have hleft : connector.openConnections = [] ∨
      0 < attempts rest + closes rest := by
    rw [or_iff_not_imp_left]
    intro hopen
    obtain ⟨connection, hmem⟩ := List.exists_mem_of_ne_nil _ hopen
    have hclosing : connection ∈ connector.closing :=
      (stable.held connection hmem).elim (gone connection hmem) id
    obtain ⟨after, hpending⟩ := stable.underway connection hmem hclosing
    exact cleanup_pos hpending
  have hplain : Invariant { connector with
      channel := none, connection := none, connectionState := .disconnected }
      rest :=
    ⟨hforgotten, fun _ => ⟨timers, hleft.imp_left fun hopen => ⟨hopen, rfl⟩⟩⟩
  unfold Connector.forgetResources
  split
  · dsimp only
    rw [List.append_nil]
    cases hexceeded : config.exceeded connector with
    | true =>
        have hforgot : config.exceeded { connector with
            channel := none, connection := none,
            connectionState := .disconnected } = true := hexceeded
        rw [scheduleReconnection_exceeded hforgot]
        exact hplain
    | false =>
        have hunintended : connector.isIntentionalClose = false := by
          by_contra hintended
          rw [Bool.not_eq_false] at hintended
          rw [cleans.exceeded rfl hintended] at hexceeded
          cases hexceeded
        have hnone := (cleans.attempt (fun h => by cases h)).attempts
        have hcloses := stable.unintended hunintended
        have hopen : connector.openConnections = [] :=
          hleft.resolve_right (by omega)
        refine ⟨hforgotten.schedule timers hnone hopen, fun hintended => ?_⟩
        rw [scheduleReconnection_isIntentionalClose] at hintended
        rw [hintended] at hunintended
        cases hunintended
  · rw [List.append_nil]
    exact hplain

theorem Stable.only (stable : Stable connector rest)
    {connection other : Nat} (opened : connection ∈ connector.openConnections)
    (hother : other ∈ connector.openConnections) : other = connection := by
  obtain ⟨single, hsingle⟩ : ∃ single,
      connector.openConnections = [single] :=
    List.length_eq_one_iff.mp (Nat.le_antisymm stable.oneOpen
      (List.length_pos_of_mem opened))
  rw [hsingle, List.mem_singleton] at hother opened
  rw [hother, opened]

theorem Stable.startClosing (stable : Stable connector rest)
    (cleans : Cleans config connector rest after)
    (timers : connector.timers = []) {connection : Nat}
    (opened : connection ∈ connector.openConnections) :
    Stable { connector with closing := connection :: connector.closing }
      (.cleanup (.closeConnection connection) after :: rest) := by
  have honly : ∀ other ∈ connector.openConnections, other = connection :=
    fun other hother => stable.only opened hother
  refine { stable with
    fresh := ?_
    oneAttempt := ?_
    connecting := ?_
    held := ?_
    underway := ?_
    target := ?_
    handled := ?_
    unintended := ?_ }
  · rintro other (hother | hclosing | hhandled | hheld)
    · exact stable.fresh other (.inl hother)
    · rcases List.mem_cons.mp hclosing with rfl | hclosing
      · exact stable.fresh other (.inl opened)
      · exact stable.fresh other (.inr (.inl hclosing))
    · exact stable.fresh other (.inr (.inr (.inl hhandled)))
    · exact stable.fresh other (.inr (.inr (.inr hheld)))
  · rw [attempts_cons]
    have hone := stable.oneAttempt
    split
    · rename_i hattempt
      have hfree := cleans.attempt (by
        simpa [Operation.isAttempt] using hattempt)
      rw [hfree.timers, hfree.attempts]
      exact Nat.le_refl 1
    · exact hone
  · intro attempt hconnect
    rcases List.mem_cons.mp hconnect with hcleanup | hrest
    · cases hcleanup
    · have hnone := (stable.connecting attempt hrest).1
      rw [hnone] at opened
      cases opened
  · intro other hother
    exact (stable.held other hother).imp_right (List.mem_cons_of_mem _)
  · intro other hother _
    rw [honly other hother]
    exact ⟨after, List.mem_cons_self⟩
  · intro other after' hpending another hanother
    rcases List.mem_cons.mp hpending with hnew | hrest
    · cases hnew
      exact honly another hanother
    · exact stable.target other after' hrest another hanother
  · intro other hother hhandled
    obtain ⟨_, hnone⟩ := stable.handled other hother hhandled
    refine ⟨timers, ?_⟩
    rw [attempts_cons, if_neg fun hattempt =>
      (cleans.attempt (by simpa [Operation.isAttempt] using
        hattempt)).handlers other hother hhandled]
    exact hnone
  · intro hunintended
    rw [closes_cons, if_neg fun hclose => cleans.close hunintended (by
      simpa [Operation.isClose] using hclose)]
    exact stable.unintended hunintended

theorem Stable.closeConnection (stable : Stable connector rest)
    (cleans : Cleans config connector rest after)
    (timers : connector.timers = []) :
    Invariant (connector.closeConnection config after).1
      (rest ++ (connector.closeConnection config after).2) := by
  unfold Connector.closeConnection
  split
  · rename_i connection hconnection
    split
    · rename_i hopen
      exact ⟨(stable.startClosing cleans timers hopen.1).perm
        (List.perm_append_singleton _ rest).symm, fun _ => ⟨timers, .inr
          (cleanup_pos (List.mem_append_right _ List.mem_cons_self))⟩⟩
    · rename_i hclosed
      refine stable.forgetResources cleans timers fun other hother hheld => ?_
      rw [hconnection, Option.some.injEq] at hheld
      rw [hheld] at hclosed
      by_contra hunclosed
      exact hclosed ⟨hother, hunclosed⟩
  · rename_i hconnection
    refine stable.forgetResources cleans timers fun other _ hheld => ?_
    rw [hconnection] at hheld
    cases hheld

theorem Stable.clearReconnectTimeout (stable : Stable connector rest) :
    connector.clearReconnectTimeout =
      { connector with timers := [], reconnectTimeoutId := none } := by
  have hone := stable.oneAttempt
  unfold Connector.clearReconnectTimeout
  cases htimers : connector.timers with
  | nil =>
      split
      · rfl
      · rename_i hnone
        rw [← hnone, ← htimers]
  | cons timer others =>
      rw [htimers, List.length_cons] at hone
      have hothers : others = [] :=
        List.eq_nil_of_length_eq_zero (by omega)
      have harmed := stable.armed timer (by
        rw [htimers]
        exact List.mem_cons_self)
      rw [harmed, hothers]
      simp

theorem isOpen_iff {channel : Nat} : connector.isOpen channel = true ↔
    ∃ connection, (channel, connection) ∈ connector.openChannels := by
  simp [Connector.isOpen]

theorem Stable.someOpen {channel : Nat} (stable : Stable connector rest)
    (isOpen : connector.isOpen channel = true) :
    connector.openConnections ≠ [] := by
  obtain ⟨connection, hmem⟩ := isOpen_iff.mp isOpen
  exact List.ne_nil_of_mem (stable.channels _ hmem)

theorem Stable.cleaning {call : CleanupCall}
    (stable : Stable connector rest)
    (cleans : Cleans config connector rest after)
    (timers : connector.timers = [])
    (someOpen : connector.openConnections ≠ [])
    (closesNone : ∀ connection, call ≠ .closeConnection connection) :
    Invariant connector (rest ++ [.cleanup call after]) := by
  refine ⟨stable.issue (fun _ h => by cases h) ?_ ?_ ?_, fun _ => ⟨timers,
    .inr (cleanup_pos (List.mem_append_right _ List.mem_cons_self))⟩⟩
  · intro connection after' hsame
    cases hsame
    exact closesNone connection rfl
  · intro hattempt
    exact cleans.attempt (by simpa [Operation.isAttempt] using hattempt)
  · intro hclose
    refine ⟨?_, someOpen⟩
    by_contra hunintended
    rw [Bool.not_eq_true] at hunintended
    exact cleans.close hunintended (by simpa [Operation.isClose] using hclose)

theorem Stable.closeChannel (stable : Stable connector rest)
    (cleans : Cleans config connector rest after) :
    Invariant (connector.closeChannel config after).1
      (rest ++ (connector.closeChannel config after).2) := by
  have hcleared : Stable
      { connector with timers := [], reconnectTimeoutId := none } rest :=
    { stable with
      oneAttempt := by
        have hone := stable.oneAttempt
        rw [List.length_nil]
        omega
      waiting := fun h => absurd rfl h
      handled := fun connection hopen hhandled =>
        ⟨rfl, (stable.handled connection hopen hhandled).2⟩
      armed := fun _ h => by cases h }
  have hcleans : Cleans config
      { connector with timers := [], reconnectTimeoutId := none } rest after :=
    ⟨fun h => ⟨rfl, (cleans.attempt h).attempts, (cleans.attempt h).handlers⟩,
      cleans.close, cleans.exceeded⟩
  unfold Connector.closeChannel
  simp only [stable.clearReconnectTimeout]
  split
  · split
    · rename_i hopen
      exact hcleared.cleaning hcleans rfl (hcleared.someOpen hopen)
        (fun _ h => by cases h)
    · exact hcleared.closeConnection hcleans rfl
  · exact hcleared.closeConnection hcleans rfl

theorem Stable.cleanupResources (stable : Stable connector rest)
    (cleans : Cleans config connector rest after) :
    Invariant (connector.cleanupResources config after).1
      (rest ++ (connector.cleanupResources config after).2) := by
  unfold Connector.cleanupResources
  split
  · split
    · rename_i hopen
      have hsome := stable.someOpen hopen
      have htimers : connector.timers = [] := by
        by_contra hwaiting
        exact hsome (stable.waiting hwaiting)
      exact stable.cleaning cleans htimers hsome (fun _ h => by cases h)
    · exact Stable.closeChannel { stable with }
        ⟨fun h => ⟨(cleans.attempt h).timers, (cleans.attempt h).attempts,
          (cleans.attempt h).handlers⟩, cleans.close, cleans.exceeded⟩
  · exact stable.closeChannel cleans

end Cleanup

/-! One step. -/

section Steps

variable {config : ReconnectionConfig} {connector : Connector}
variable {operation issued : Operation} {rest : List Operation}
variable {task : Task} {ok : Bool}

theorem isAttempt_of_task (isTask : operation.task? = some task) :
    operation.isAttempt = (task != .recreation) ∧
      operation.isClose = false := by
  cases operation with
  | connect attempt =>
      cases isTask
      exact ⟨rfl, rfl⟩
  | createChannel task _ =>
      cases isTask
      exact ⟨rfl, rfl⟩
  | setup task _ _ =>
      cases isTask
      exact ⟨rfl, rfl⟩
  | cleanup _ _ => cases isTask

theorem closesNone_of_task (isTask : operation.task? = some task)
    (connection : Nat) (after : After) :
    operation ≠ .cleanup (.closeConnection connection) after := by
  rintro rfl
  cases isTask

theorem Invariant.onward (invariant : Invariant connector (operation :: rest))
    (isTask : operation.task? = some task)
    (isNext : issued.task? = some task)
    (connectsNone : ∀ attempt, issued ≠ .connect attempt) :
    Invariant connector (rest ++ [issued]) := by
  obtain ⟨hattempt, hclose⟩ := isAttempt_of_task isTask
  obtain ⟨hattempt', hclose'⟩ := isAttempt_of_task isNext
  have hsettled := invariant.stable.settled
    fun connection _ => closesNone_of_task isTask connection
  refine ⟨hsettled.issue connectsNone (closesNone_of_task isNext) ?_ ?_,
    fun hintended => ?_⟩
  · intro hissued
    rw [hattempt', ← hattempt] at hissued
    exact invariant.stable.free hissued
  · intro hissued
    rw [hclose'] at hissued
    cases hissued
  · rw [attempts_snoc, closes_snoc, attempts_cons, closes_cons, hattempt',
      hclose', ← hattempt, ← hclose, ← attempts_cons, ← closes_cons]
    exact invariant.intended hintended

theorem Invariant.onSetupFailed
    (invariant : Invariant connector (operation :: rest))
    (isTask : operation.task? = some task)
    (fails : operation.fails connector ok = true)
    (orderly : config.exceeded connector = false →
      Steady.Settling config connector ok operation) :
    Invariant (connector.onSetupFailed config task).1
      (rest ++ (connector.onSetupFailed config task).2) := by
  obtain ⟨hattempt, hclose⟩ := isAttempt_of_task isTask
  have hsettled := invariant.stable.settled
    fun connection _ => closesNone_of_task isTask connection
  cases task with
  | attempt attempt =>
      refine hsettled.cleanupResources
        ⟨fun _ => invariant.stable.free hattempt, fun _ h => (by cases h), ?_⟩
      intro hreconnect hintended
      cases hreconnect
      by_contra hexceeded
      rw [Bool.not_eq_true] at hexceeded
      rw [(orderly hexceeded).reconnection isTask fails] at hintended
      cases hintended
  | recreation =>
      have hplain : Invariant connector rest := by
        refine ⟨hsettled, fun hintended => ?_⟩
        have hbefore := invariant.intended hintended
        rwa [attempts_cons, closes_cons, hattempt, hclose] at hbefore
      simp only [Connector.onSetupFailed]
      split
      · rename_i hopen
        obtain ⟨hunintended, henabled⟩ := Bool.and_eq_true_iff.mp hopen
        rw [Bool.not_eq_true'] at hunintended
        have hexceeded : config.exceeded connector = true := by
          by_contra hleft
          rw [Bool.not_eq_true] at hleft
          rcases (orderly hleft).recreation isTask fails with hclosed | hoff
          · rw [hclosed] at hunintended
            cases hunintended
          · rw [hoff] at henabled
            cases henabled
        rw [List.append_nil, scheduleReconnection_exceeded hexceeded]
        refine ⟨{ hsettled with }, fun hintended => ?_⟩
        change connector.isIntentionalClose = true at hintended
        rw [hintended] at hunintended
        cases hunintended
      · rw [List.append_nil]
        exact hplain

theorem Invariant.connected {attempt : Attempt}
    (invariant : Invariant connector (.connect attempt :: rest)) :
    Invariant
      { connector with
        connection := some connector.next
        openConnections := connector.next :: connector.openConnections
        next := connector.next + 1 }
      (rest ++ [.createChannel (.attempt attempt) connector.next]) := by
  have hstable := invariant.stable
  obtain ⟨hopen, hcloses⟩ :=
    hstable.connecting attempt List.mem_cons_self
  obtain ⟨htimers, hattempts, _⟩ := hstable.free (by rfl)
  have hnone : closes rest = 0 := by
    rw [closes_cons] at hcloses
    omega
  have hnew : ∀ connection, connection ∈ connector.next ::
      connector.openConnections → connection = connector.next := by
    intro connection hmem
    rwa [hopen, List.mem_singleton] at hmem
  have hunhandled : ∀ connection, connection = connector.next →
      connection ∉ connector.closing ∧
      connection ∉ connector.connectionHandlers := by
    rintro connection rfl
    refine ⟨fun hmem => ?_, fun hmem => ?_⟩
    · exact Nat.lt_irrefl _ (hstable.fresh _ (.inr (.inl hmem)))
    · exact Nat.lt_irrefl _ (hstable.fresh _ (.inr (.inr (.inl hmem))))
  have hsettled := hstable.settled fun _ _ _ h => (by cases h)
  have hopened : Stable
      { connector with
        connection := some connector.next
        openConnections := connector.next :: connector.openConnections
        next := connector.next + 1 } rest := by
    refine { hsettled with
      fresh := ?_
      oneOpen := ?_
      waiting := fun h => absurd htimers h
      connecting := ?_
      held := ?_
      underway := ?_
      target := ?_
      handled := ?_
      channels := ?_ }
    · rintro connection (hmem | hmem | hmem | hmem)
      · rw [hnew connection hmem]
        exact Nat.lt_succ_self _
      · exact Nat.lt_succ_of_lt (hstable.fresh _ (.inr (.inl hmem)))
      · exact Nat.lt_succ_of_lt (hstable.fresh _ (.inr (.inr (.inl hmem))))
      · cases hmem
        exact Nat.lt_succ_self _
    · rw [hopen]
      exact Nat.le_refl 1
    · intro other hother
      have hpos := attempts_pos hother rfl
      omega
    · intro connection hmem
      rw [hnew connection hmem]
      exact .inl rfl
    · intro connection hmem hclosing
      exact absurd hclosing (hunhandled connection (hnew connection hmem)).1
    · intro connection after hmem
      have hpos := cleanup_pos hmem
      omega
    · intro connection hmem hhandled
      exact absurd hhandled (hunhandled connection (hnew connection hmem)).2
    · intro channel hchannel
      have hold := hstable.channels channel hchannel
      rw [hopen] at hold
      cases hold
  refine ⟨hopened.issue (fun _ h => by cases h) (fun _ _ h => by cases h)
    (fun _ => ⟨htimers, hattempts, fun connection hmem =>
      (hunhandled connection (hnew connection hmem)).2⟩)
    (fun h => by cases h), fun _ => ⟨htimers, .inr ?_⟩⟩
  have hpos : 0 < attempts
      (rest ++ [.createChannel (.attempt attempt) connector.next]) :=
    attempts_pos (List.mem_append_right _ List.mem_cons_self) rfl
  omega

theorem Invariant.onSetupDone
    (invariant : Invariant connector (operation :: rest))
    (isTask : operation.task? = some task) :
    Invariant (connector.onSetupDone config task).1
      (rest ++ (connector.onSetupDone config task).2) := by
  obtain ⟨hattempt, hclose⟩ := isAttempt_of_task isTask
  have hsettled := invariant.stable.settled
    fun connection _ => closesNone_of_task isTask connection
  cases task with
  | recreation =>
      simp only [Connector.onSetupDone, List.append_nil]
      refine ⟨hsettled, fun hintended => ?_⟩
      have hbefore := invariant.intended hintended
      rwa [attempts_cons, closes_cons, hattempt, hclose] at hbefore
  | attempt attempt =>
      have hfree := invariant.stable.free hattempt
      simp only [Connector.onSetupDone]
      split
      · rename_i hintended
        exact hsettled.cleanupResources ⟨fun _ => hfree,
          fun _ h => (by cases h), fun h => (by cases h)⟩
      · rename_i hunintended
        rw [List.append_nil]
        refine ⟨{ hsettled with fresh := ?_, handled := ?_ }, fun hintended =>
          absurd hintended hunintended⟩
        · rintro connection (hmem | hmem | hmem | hmem)
          · exact hsettled.fresh connection (.inl hmem)
          · exact hsettled.fresh connection (.inr (.inl hmem))
          · rcases List.mem_append.mp hmem with hnew | hold
            · exact hsettled.fresh connection
                (.inr (.inr (.inr (Option.mem_toList.mp hnew))))
            · exact hsettled.fresh connection (.inr (.inr (.inl hold)))
          · exact hsettled.fresh connection (.inr (.inr (.inr hmem)))
        · exact fun _ _ _ => ⟨hfree.timers, hfree.attempts⟩

theorem Invariant.onSetupCall {call : SetupCall} {channel : Nat}
    (invariant : Invariant connector (.setup task call channel :: rest))
    (orderly : config.exceeded connector = false →
      Steady.Settling config connector ok (.setup task call channel)) :
    Invariant (connector.onSetupCall config task call).1
      (rest ++ (connector.onSetupCall config task call).2) := by
  unfold Connector.onSetupCall
  split
  · rename_i hchannel
    exact invariant.onSetupFailed rfl
      (by simp [Operation.fails, hchannel]) orderly
  · split
    · exact invariant.onward rfl rfl (fun _ h => by cases h)
    · rename_i current _ _ _
      have hhandled : Invariant { connector with
          channelHandlers := current :: connector.channelHandlers }
          (.setup task call channel :: rest) :=
        ⟨{ invariant.stable with }, invariant.intended⟩
      exact hhandled.onSetupDone rfl

theorem Stable.keepChannels (stable : Stable connector rest)
    (kept : Nat × Nat → Bool) :
    Stable (connector.keepChannels kept) rest := by
  refine { stable with channels := ?_, consumers := ?_ }
  · intro channel hmem
    exact stable.channels channel (List.mem_filter.mp hmem).1
  · intro consumer hmem
    exact (List.mem_filter.mp hmem).2

theorem onChannelClose_cases (config : ReconnectionConfig)
    (connector : Connector) (channel : Nat) :
    ∃ field consumerTag channelHandlers, ∃ issued : List Operation,
      connector.onChannelClose config channel =
        ({ connector.keepChannels (·.1 != channel) with
            channel := field, consumerTag, channelHandlers }, issued) ∧
      (issued = [] ∨
        ∃ connection, issued = [.createChannel .recreation connection]) := by
  unfold Connector.onChannelClose
  dsimp only
  split
  · split
    · rename_i hrecreate
      obtain ⟨_, hconnection⟩ := Bool.and_eq_true_iff.mp hrecreate
      obtain ⟨connection, hconnection⟩ :=
        Option.isSome_iff_exists.mp hconnection
      refine ⟨none, none, connector.channelHandlers.filter (· != channel), _,
        ?_, .inr ⟨connection, rfl⟩⟩
      simp only [Connector.setupChannel, hconnection]
      rfl
    · exact ⟨none, none, _, [], rfl, .inl rfl⟩
  · exact ⟨connector.channel, connector.consumerTag,
      connector.channelHandlers, [], rfl, .inl rfl⟩

theorem recreation_counts (rest : List Operation) {more : List Operation}
    (isMore : more = [] ∨
    ∃ connection, more = [.createChannel .recreation connection]) :
    attempts (rest ++ more) = attempts rest ∧
      closes (rest ++ more) = closes rest := by
  rcases isMore with rfl | ⟨connection, rfl⟩
  · rw [List.append_nil]
    exact ⟨rfl, rfl⟩
  · rw [attempts_snoc, closes_snoc]
    exact ⟨rfl, rfl⟩

theorem Stable.onChannelClose (stable : Stable connector rest)
    (channel : Nat) :
    Stable (connector.onChannelClose config channel).1
      (rest ++ (connector.onChannelClose config channel).2) := by
  obtain ⟨field, tag, handlers, issued, hreaction, hissued⟩ :=
    onChannelClose_cases config connector channel
  have hkept : Stable { connector.keepChannels (·.1 != channel) with
      channel := field, consumerTag := tag, channelHandlers := handlers }
      rest := { stable.keepChannels (·.1 != channel) with }
  rw [hreaction]
  rcases hissued with rfl | ⟨connection, rfl⟩
  · rw [List.append_nil]
    exact hkept
  · exact hkept.issue (fun _ h => by cases h) (fun _ _ h => by cases h)
      (fun h => by cases h) (fun h => by cases h)

theorem Invariant.onChannelClose (invariant : Invariant connector rest)
    (channel : Nat) :
    Invariant (connector.onChannelClose config channel).1
      (rest ++ (connector.onChannelClose config channel).2) := by
  refine ⟨invariant.stable.onChannelClose channel, fun hintended => ?_⟩
  obtain ⟨field, tag, handlers, issued, hreaction, hissued⟩ :=
    onChannelClose_cases config connector channel
  obtain ⟨hattempts, hcloses⟩ := recreation_counts rest hissued
  rw [hreaction] at hintended ⊢
  simp only at hintended ⊢
  rw [hattempts, hcloses]
  exact invariant.intended hintended

theorem onConnectionClose_cases (config : ReconnectionConfig)
    (connector : Connector) (connection : Nat) :
    (connection ∈ connector.connectionHandlers ∧
      connector.isIntentionalClose = false ∧
      connector.onConnectionClose config connection =
        Connector.scheduleReconnection config
          { connector.dropConnection connection with
            connectionState := .disconnected, channel := none,
            connection := none, consumerTag := none }) ∨
    ∃ connectionState channel field consumerTag,
      (field = none ∨ field = connector.connection) ∧
      connector.onConnectionClose config connection =
        { connector.dropConnection connection with
          connectionState, channel, connection := field, consumerTag } := by
  unfold Connector.onConnectionClose
  dsimp only
  split
  · rename_i hhandled
    split
    · rename_i hopen
      obtain ⟨hunintended, _⟩ := Bool.and_eq_true_iff.mp hopen
      exact .inl ⟨hhandled, (Bool.not_eq_true' _).mp hunintended, rfl⟩
    · exact .inr ⟨_, _, _, _, .inl rfl, rfl⟩
  · exact .inr ⟨connector.connectionState, connector.channel,
      connector.connection, connector.consumerTag, .inr rfl, rfl⟩

theorem Stable.onlyOpen (stable : Stable connector rest) {connection : Nat}
    (isOpen : connection ∈ connector.openConnections) :
    (connector.dropConnection connection).openConnections = [] := by
  obtain ⟨single, hsingle⟩ : ∃ single,
      connector.openConnections = [single] :=
    List.length_eq_one_iff.mp (Nat.le_antisymm stable.oneOpen
      (List.length_pos_of_mem isOpen))
  rw [hsingle, List.mem_singleton] at isOpen
  simp [Connector.dropConnection, Connector.keepChannels, hsingle, isOpen]

theorem Stable.dropConnection (stable : Stable connector rest)
    {connection : Nat} (isOpen : connection ∈ connector.openConnections)
    {connectionState : ConnectionState} {channel field consumerTag : Option Nat}
    (isField : field = none ∨ field = connector.connection) :
    Stable { connector.dropConnection connection with
      connectionState, channel, connection := field, consumerTag } rest := by
  have hnone := stable.onlyOpen isOpen
  have hvacuous : ∀ {property : Nat → Prop},
      ∀ other ∈ (connector.dropConnection connection).openConnections,
        property other := by
    intro property other hother
    rw [hnone] at hother
    cases hother
  refine { stable.keepChannels (·.2 != connection) with
    fresh := ?_
    oneOpen := ?_
    waiting := fun _ => hnone
    connecting := ?_
    held := hvacuous
    underway := hvacuous
    target := fun _ _ _ => hvacuous
    handled := hvacuous
    channels := ?_ }
  · rintro other (hmem | hmem | hmem | hmem)
    · change other ∈ (connector.dropConnection connection).openConnections
        at hmem
      rw [hnone] at hmem
      cases hmem
    · exact stable.fresh other (.inr (.inl hmem))
    · exact stable.fresh other (.inr (.inr (.inl hmem)))
    · rcases isField with rfl | rfl
      · cases hmem
      · exact stable.fresh other (.inr (.inr (.inr hmem)))
  · change (connector.dropConnection connection).openConnections.length ≤ 1
    rw [hnone]
    exact Nat.zero_le 1
  · intro attempt hconnect
    exact ⟨hnone, (stable.connecting attempt hconnect).2⟩
  · intro other hother
    obtain ⟨hmem, hkept⟩ := List.mem_filter.mp hother
    refine List.mem_filter.mpr ⟨stable.channels other hmem, hkept⟩

theorem Stable.onConnectionClose (stable : Stable connector rest)
    {connection : Nat} (isOpen : connection ∈ connector.openConnections) :
    Stable (connector.onConnectionClose config connection) rest := by
  rcases onConnectionClose_cases config connector connection with
    ⟨hhandled, _, hclosed⟩ | ⟨_, _, _, _, hfield, hclosed⟩
  · obtain ⟨htimers, hattempts⟩ := stable.handled connection isOpen hhandled
    rw [hclosed]
    exact (stable.dropConnection isOpen (.inl rfl)).schedule htimers hattempts
      (stable.onlyOpen isOpen)
  · rw [hclosed]
    exact stable.dropConnection isOpen hfield

theorem Invariant.onConnectionClose (invariant : Invariant connector rest)
    {connection : Nat} (isOpen : connection ∈ connector.openConnections) :
    Invariant (connector.onConnectionClose config connection) rest := by
  refine ⟨invariant.stable.onConnectionClose isOpen, ?_⟩
  rcases onConnectionClose_cases config connector connection with
    ⟨_, hunintended, hclosed⟩ | ⟨_, _, _, _, _, hclosed⟩
  · intro hintended
    rw [hclosed, scheduleReconnection_isIntentionalClose] at hintended
    change connector.isIntentionalClose = true at hintended
    rw [hintended] at hunintended
    cases hunintended
  · intro hintended
    rw [hclosed] at hintended ⊢
    obtain ⟨htimers, hleft⟩ := invariant.intended hintended
    refine ⟨htimers, .inr (hleft.resolve_left fun hnone => ?_)⟩
    rw [hnone.1] at isOpen
    cases isOpen

theorem Invariant.cleans {call : CleanupCall} {after : After}
    (invariant : Invariant connector (.cleanup call after :: rest))
    (orderly : config.exceeded connector = false →
      Steady.Settling config connector ok (.cleanup call after)) :
    Cleans config connector rest after ∧ connector.timers = [] := by
  have hcleans : Cleans config connector rest after := by
    refine ⟨fun hattempt => ?_, fun hunintended hclose => ?_,
      fun hfailed hintended => ?_⟩
    · exact invariant.stable.free (by simpa [Operation.isAttempt] using hattempt)
    · have hnone := invariant.stable.unintended hunintended
      rw [closes_cons, if_pos (by simp [Operation.isClose, hclose])] at hnone
      omega
    · by_contra hleft
      rw [Bool.not_eq_true] at hleft
      have hopen := (orderly hleft).cleanup
        (by simp [Operation.isFailed, hfailed])
      rw [hintended] at hopen
      cases hopen
  refine ⟨hcleans, ?_⟩
  cases hintended : connector.isIntentionalClose with
  | true => exact (invariant.intended hintended).1
  | false => exact (hcleans.attempt (hcleans.close hintended)).timers

theorem Cleans.onChannelClose {after : After}
    (cleans : Cleans config connector rest after) (channel : Nat) :
    Cleans config (connector.onChannelClose config channel).1
      (rest ++ (connector.onChannelClose config channel).2) after ∧
    (connector.onChannelClose config channel).1.timers =
      connector.timers := by
  obtain ⟨field, tag, handlers, issued, hreaction, hissued⟩ :=
    onChannelClose_cases config connector channel
  have hattempts := (recreation_counts rest hissued).1
  rw [hreaction]
  refine ⟨⟨fun hattempt => ?_, cleans.close, cleans.exceeded⟩, rfl⟩
  have hfree := cleans.attempt hattempt
  exact ⟨hfree.timers, hattempts.trans hfree.attempts, hfree.handlers⟩

theorem Invariant.closed {connection : Nat} {after : After}
    (invariant : Invariant connector
      (.cleanup (.closeConnection connection) after :: rest))
    (orderly : config.exceeded connector = false →
      Steady.Settling config connector ok
        (.cleanup (.closeConnection connection) after))
    (closed : Connector)
    (isClosed : closed = if connection ∈ connector.openConnections then
      connector.onConnectionClose config connection else connector) :
    Invariant (closed.forgetResources config after).1
      (rest ++ (closed.forgetResources config after).2) := by
  obtain ⟨hcleans, htimers⟩ := invariant.cleans orderly
  split at isClosed
  · rename_i hopen
    rcases onConnectionClose_cases config connector connection with
      ⟨hhandled, hunintended, _⟩ | ⟨_, _, _, _, hfield, hclosed⟩
    · have hfree := hcleans.attempt (hcleans.close hunintended)
      exact absurd hhandled (hfree.handlers connection hopen)
    · have hvacuous : ∀ other,
          other ∉ (connector.dropConnection connection).openConnections := by
        rw [invariant.stable.onlyOpen hopen]
        exact fun _ h => by cases h
      have hstable : Stable (connector.onConnectionClose config connection)
          (.cleanup (.closeConnection connection) after :: rest) :=
        invariant.stable.onConnectionClose hopen
      rw [hclosed] at hstable
      rw [isClosed, hclosed]
      refine (hstable.settled fun other hother =>
        absurd hother (hvacuous other)).forgetResources
          ⟨fun hattempt => ⟨htimers, (hcleans.attempt hattempt).attempts,
            fun other hother => absurd hother (hvacuous other)⟩,
            hcleans.close, hcleans.exceeded⟩ htimers
          fun other hother => absurd hother (hvacuous other)
  · rename_i hgone
    have hnone : ∀ other, other ∉ connector.openConnections := by
      intro other hother
      have hsame := invariant.stable.target connection after
        List.mem_cons_self other hother
      exact hgone (hsame ▸ hother)
    rw [isClosed]
    exact (invariant.stable.settled fun other hother =>
      absurd hother (hnone other)).forgetResources hcleans htimers
        fun other hother => absurd hother (hnone other)

theorem Invariant.channelCreated {connection : Nat}
    (invariant : Invariant connector (.createChannel task connection :: rest))
    (isOpen : connection ∈ connector.openConnections) :
    Invariant
      { connector with
        channel := some connector.next
        openChannels := (connector.next, connection) :: connector.openChannels
        next := connector.next + 1 }
      (.createChannel task connection :: rest) := by
  refine ⟨{ invariant.stable with
    fresh := ?_
    channels := ?_
    consumers := ?_ }, invariant.intended⟩
  · intro other hother
    exact Nat.lt_succ_of_lt (invariant.stable.fresh other hother)
  · intro channel hchannel
    rcases List.mem_cons.mp hchannel with rfl | hold
    · exact isOpen
    · exact invariant.stable.channels channel hold
  · intro consumer hconsumer
    obtain ⟨other, hother⟩ :=
      isOpen_iff.mp (invariant.stable.consumers consumer hconsumer)
    exact isOpen_iff.mpr ⟨other, List.mem_cons_of_mem _ hother⟩

theorem Invariant.onConsume {channel : Nat}
    (invariant : Invariant connector (operation :: rest))
    (isOpen : connector.isOpen channel = true) :
    Invariant (connector.onConsume channel) (operation :: rest) := by
  refine ⟨{ invariant.stable with fresh := ?_, consumers := ?_ },
    invariant.intended⟩
  · intro other hother
    exact Nat.lt_succ_of_lt (invariant.stable.fresh other hother)
  · intro consumer hconsumer
    rcases List.mem_cons.mp hconsumer with rfl | hold
    · exact isOpen
    · exact invariant.stable.consumers consumer hold

theorem Invariant.react (invariant : Invariant connector (operation :: rest))
    (possible : ok = true → operation.possible connector = true)
    (orderly : config.exceeded connector = false →
      Steady.Settling config connector ok operation) :
    Invariant (Connector.react config ok operation connector).1
      (rest ++ (Connector.react config ok operation connector).2) := by
  cases operation with
  | connect attempt =>
      cases ok with
      | true => exact invariant.connected
      | false => exact invariant.onSetupFailed rfl rfl orderly
  | createChannel task connection =>
      cases ok with
      | true =>
          have hopen : connection ∈ connector.openConnections := by
            simpa [Operation.possible] using possible rfl
          exact (invariant.channelCreated hopen).onward rfl rfl
            (fun _ h => by cases h)
      | false => exact invariant.onSetupFailed rfl rfl orderly
  | setup task call channel =>
      cases ok with
      | true =>
          have hconsumed :
              config.exceeded (connector.onConsume channel) = false →
              Steady.Settling config (connector.onConsume channel) true
                (.setup task call channel) := fun hleft =>
            ⟨(orderly hleft).recreation, (orderly hleft).reconnection,
              (orderly hleft).cleanup⟩
          simp only [Connector.react, if_true]
          split
          · exact (invariant.onConsume (possible rfl)).onSetupCall hconsumed
          · exact invariant.onSetupCall orderly
      | false => exact invariant.onSetupFailed rfl rfl orderly
  | cleanup call after =>
      obtain ⟨hcleans, htimers⟩ := invariant.cleans orderly
      cases call with
      | cancel tag channel =>
          have hsettled := invariant.stable.settled
            fun _ _ _ h => (by cases h)
          refine Stable.closeChannel { hsettled with consumers := ?_ }
            ⟨fun h => ⟨(hcleans.attempt h).timers, (hcleans.attempt h).attempts,
              (hcleans.attempt h).handlers⟩, hcleans.close, hcleans.exceeded⟩
          intro consumer hconsumer
          refine hsettled.consumers consumer ?_
          dsimp only at hconsumer
          split at hconsumer
          · exact (List.mem_filter.mp hconsumer).1
          · exact hconsumer
      | closeChannel channel =>
          have hsettled := invariant.stable.settled
            fun _ _ _ h => (by cases h)
          cases ok with
          | true =>
              obtain ⟨hgoesOn, hsame⟩ := hcleans.onChannelClose channel
              have hclosed := (hsettled.onChannelClose channel).closeConnection
                hgoesOn (hsame.trans htimers)
              rw [List.append_assoc] at hclosed
              exact hclosed
          | false => exact hsettled.closeConnection hcleans htimers
      | closeConnection connection => exact invariant.closed orderly _ rfl

end Steps

/-! Every run. -/

section Runs

variable {config : ReconnectionConfig} {loop after : ConnectorLoop}

theorem invariant_built :
    Invariant ConnectorLoop.built.vars ConnectorLoop.built.pending := by
  refine ⟨⟨?_, by decide, by decide, by decide, fun _ _ => ⟨rfl, rfl⟩,
    ?_, ?_, ?_, ?_, ?_, ?_, ?_, fun _ => rfl⟩, fun h => by cases h⟩
  · rintro connection (h | h | h | h)
    · cases h
    · cases h
    · cases h
    · cases h
  · exact fun _ h => by cases h
  · exact fun _ h => by cases h
  · exact fun _ _ _ _ h => by cases h
  · exact fun _ h => by cases h
  · exact fun _ h => by cases h
  · exact fun _ h => by cases h
  · exact fun _ h => by cases h

theorem Invariant.timer {connector : Connector} {pending : List Operation}
    (invariant : Invariant connector pending) {timer : Nat}
    (isPending : timer ∈ connector.timers) :
    Invariant (attemptReconnection
        { connector with timers := connector.timers.erase timer }).1
      (pending ++ (attemptReconnection
        { connector with timers := connector.timers.erase timer }).2) := by
  have hstable := invariant.stable
  have hwaiting : connector.timers ≠ [] := List.ne_nil_of_mem isPending
  have hunintended : connector.isIntentionalClose = false := by
    by_contra hintended
    rw [Bool.not_eq_false] at hintended
    exact hwaiting (invariant.intended hintended).1
  have hopen := hstable.waiting hwaiting
  have hone := hstable.oneAttempt
  have hlength := List.length_erase_of_mem isPending
  have hpositive := List.length_pos_of_ne_nil hwaiting
  have herased : connector.timers.erase timer = [] :=
    List.eq_nil_of_length_eq_zero (by omega)
  have hvacuous : ∀ other, other ∉ connector.openConnections := by
    rw [hopen]
    exact fun _ h => by cases h
  simp only [attemptReconnection, hunintended, Bool.false_eq_true, if_false,
    herased]
  refine ⟨Stable.perm ?_ (List.perm_append_singleton _ pending).symm,
    fun hintended => ?_⟩
  · refine { hstable with
      oneAttempt := ?_
      waiting := fun h => absurd rfl h
      connecting := ?_
      underway := fun other hother => absurd hother (hvacuous other)
      target := fun _ _ _ other hother => absurd hother (hvacuous other)
      handled := fun other hother => absurd hother (hvacuous other)
      armed := fun _ h => by cases h
      unintended := ?_ }
    · have hattempt : (Operation.connect .reconnect).isAttempt = true := rfl
      rw [attempts_cons, if_pos hattempt]
      change 0 + (attempts pending + 1) ≤ 1
      omega
    · refine fun _ _ => ⟨hopen, ?_⟩
      rw [closes_cons, if_neg (by simp [Operation.isClose])]
      exact hstable.unintended hunintended
    · intro _
      rw [closes_cons, if_neg (by simp [Operation.isClose])]
      exact hstable.unintended hunintended
  · cases hintended

theorem Invariant.close {connector : Connector} {pending : List Operation}
    (invariant : Invariant connector pending) :
    Invariant (close config connector).1
      (pending ++ (close config connector).2) :=
  Stable.cleanupResources
    { invariant.stable with unintended := fun h => by cases h }
    ⟨fun h => absurd rfl h, fun h => (by cases h), fun h => (by cases h)⟩

theorem Invariant.step {event : ConnectorEvent}
    (invariant : Invariant loop.vars loop.pending)
    (orderly : Steady config loop event)
    (stepped : loop.step config event = some after) :
    Invariant after.vars after.pending := by
  cases event with
  | settle index ok =>
      simp only [ConnectorLoop.step] at stepped
      split at stepped
      · rename_i hpossible
        obtain ⟨operation, hoperation, hcompletes⟩ :=
          Loop.complete_cases stepped
        have hbefore : Invariant loop.vars
            (operation :: loop.pending.eraseIdx index) := by
          have hperm := hcompletes.pending
          refine ⟨invariant.stable.perm hperm, fun hintended => ?_⟩
          rw [attempts, closes, ← hperm.countP_eq, ← hperm.countP_eq]
          exact invariant.intended hintended
        rw [hoperation, Option.all_some, Bool.or_eq_true,
          Bool.not_eq_true'] at hpossible
        have hreacted := hbefore.react
          (fun hok => hpossible.resolve_left (by simp [hok]))
          (orderly operation hoperation)
        rw [hcompletes.vars, hcompletes.issued]
        exact hreacted
      · cases stepped
  | timer timer =>
      simp only [ConnectorLoop.step] at stepped
      split at stepped
      · rename_i hpending
        cases stepped
        exact invariant.timer hpending
      · cases stepped
  | channelClose channel =>
      simp only [ConnectorLoop.step] at stepped
      split at stepped
      · cases stepped
        exact invariant.onChannelClose channel
      · cases stepped
  | connectionClose connection =>
      simp only [ConnectorLoop.step] at stepped
      split at stepped
      · rename_i hopen
        cases stepped
        exact invariant.onConnectionClose hopen
      · cases stepped
  | close =>
      cases stepped
      exact invariant.close

theorem Invariant.atMostOne (invariant : Invariant loop.vars loop.pending) :
    AtMostOne loop := by
  have hstable := invariant.stable
  have hone := hstable.oneAttempt
  refine ⟨hone, ?_, fun hattempt connection hopen hhandled => ?_⟩
  · have hconnects : loop.pending.countP Operation.isConnect ≤
        attempts loop.pending := by
      refine List.countP_mono_left fun operation _ hconnect => ?_
      cases operation with
      | connect _ => rfl
      | createChannel _ _ => cases hconnect
      | setup _ _ _ => cases hconnect
      | cleanup _ _ => cases hconnect
    by_cases hopen : loop.vars.openConnections = []
    · rw [hopen, List.length_nil]
      omega
    · have htimers : loop.vars.timers = [] := by
        by_contra hwaiting
        exact hopen (hstable.waiting hwaiting)
      have hnone : loop.pending.countP Operation.isConnect = 0 := by
        refine List.countP_eq_zero.mpr fun operation hmem hconnect => ?_
        cases operation with
        | connect attempt => exact hopen (hstable.connecting attempt hmem).1
        | createChannel _ _ => cases hconnect
        | setup _ _ _ => cases hconnect
        | cleanup _ _ => cases hconnect
      rw [htimers, hnone, List.length_nil]
      have hlength := hstable.oneOpen
      omega
  · have hnone := (hstable.handled connection hopen hhandled).2
    omega

theorem Invariant.isClosed (invariant : Invariant loop.vars loop.pending)
    (intentional : loop.vars.isIntentionalClose = true)
    (finished : loop.pending = []) : Closed loop.vars := by
  obtain ⟨htimers, hleft⟩ := invariant.intended intentional
  rw [finished] at hleft
  obtain ⟨hopen, hstate⟩ := hleft.resolve_right (Nat.lt_irrefl 0)
  have hchannels : loop.vars.openChannels = [] := by
    rw [List.eq_nil_iff_forall_not_mem]
    intro channel hmem
    have hconnection := invariant.stable.channels channel hmem
    rw [hopen] at hconnection
    cases hconnection
  refine ⟨htimers, hopen, hchannels, ?_, hstate⟩
  rw [List.eq_nil_iff_forall_not_mem]
  intro consumer hmem
  obtain ⟨connection, hchannel⟩ :=
    isOpen_iff.mp (invariant.stable.consumers consumer hmem)
  rw [hchannels] at hchannel
  cases hchannel

/-- The life of a connector: at most one timer, attempt and connection at any
time, and nothing of them once `close()` has been called and all that is under
way has finished. -/
theorem connector_lifecycle
    (reached : Reachable (ConnectorLoop.step config) (Steady config)
      ConnectorLoop.built loop) :
    AtMostOne loop ∧ (loop.vars.isIntentionalClose = true →
      loop.pending = [] → Closed loop.vars) := by
  have hinvariant : Invariant loop.vars loop.pending :=
    reached.invariant (fun loop => Invariant loop.vars loop.pending)
      invariant_built fun _ _ _ invariant orderly stepped =>
        invariant.step orderly stepped
  exact ⟨hinvariant.atMostOne, hinvariant.isClosed⟩

end Runs

/-! A connection that drops. -/

/-- The calls of an attempt, which all succeed. -/
def established : List ConnectorEvent := List.replicate 6 (.settle 0 true)

def permitsSuccess (loop : ConnectorLoop) : ConnectorEvent → Bool
  | .settle index ok => (loop.pending[index]?).all fun operation =>
      !operation.fails loop.vars ok && !operation.isFailed
  | _ => true

theorem permitsSuccess_orderly (config : ReconnectionConfig)
    (loop : ConnectorLoop) (event : ConnectorEvent)
    (h : permitsSuccess loop event = true) : Steady config loop event := by
  cases event with
  | settle index ok =>
      intro operation hoperation _
      simp only [permitsSuccess, Option.mem_def.mp hoperation, Option.all_some,
        Bool.and_eq_true, Bool.not_eq_true'] at h
      refine ⟨fun _ hfails => ?_, fun _ hfails => ?_, fun hfailed => ?_⟩
      · rw [h.1] at hfails
        cases hfails
      · rw [h.1] at hfails
        cases hfails
      · rw [h.2] at hfailed
        cases hfailed
  | timer _ => trivial
  | channelClose _ => trivial
  | connectionClose _ => trivial
  | close => trivial

/-- The connection drops, is established again, and is closed. -/
def droppedThenClosed : List ConnectorEvent :=
  established ++ [.connectionClose 0, .timer 3] ++ established ++
    [.close, .settle 0 true, .settle 0 true, .settle 0 true]

theorem connector_closed_after_drop :
    ∃ loop, runEvents (ConnectorLoop.step {}) permitsSuccess droppedThenClosed
      ConnectorLoop.built = some loop ∧ AtMostOne loop ∧
      Closed loop.vars := by
  have hrun : ∃ loop, runEvents (ConnectorLoop.step {}) permitsSuccess
      droppedThenClosed ConnectorLoop.built = some loop ∧
      loop.vars.isIntentionalClose = true ∧ loop.pending = [] :=
    ⟨_, rfl, rfl, rfl⟩
  obtain ⟨loop, hloop, hintended, hpending⟩ := hrun
  obtain ⟨hone, hclosed⟩ := connector_lifecycle
    (reachable_of_runEvents (permitsSuccess_orderly {}) hloop)
  exact ⟨loop, hloop, hone, hclosed hintended hpending⟩

/-- The channel is closed with its connection: creating it again fails, and
there are two timers. -/
theorem dropped_connection_two_timers :
    ¬ ∀ (config : ReconnectionConfig) (loop : ConnectorLoop),
      Reachable (ConnectorLoop.step config) (fun _ _ => True)
        ConnectorLoop.built loop →
      AtMostOne loop ∧ (loop.vars.isIntentionalClose = true →
        loop.pending = [] → Closed loop.vars) := by
  intro hall
  have hrun : ∃ loop, runEvents (ConnectorLoop.step {}) (fun _ _ => true)
      (established ++ [.channelClose 1, .connectionClose 0, .settle 0 false])
      ConnectorLoop.built = some loop ∧ loop.vars.timers.length = 2 :=
    ⟨_, rfl, rfl⟩
  obtain ⟨loop, hloop, htimers⟩ := hrun
  have hreached : Reachable (ConnectorLoop.step {}) (fun _ _ => True)
      ConnectorLoop.built loop :=
    reachable_of_runEvents (fun _ _ _ => trivial) hloop
  have hone := (hall {} loop hreached).1.attempts
  omega

end TwakeKickstart.AmqpConnector
