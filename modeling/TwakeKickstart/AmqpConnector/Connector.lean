import TwakeKickstart.Library.EventLoop

namespace TwakeKickstart.AmqpConnector

open Library

/-! `AMQPConnector` from the call of `build()` on: its fields, what it awaits,
and the connections, channels, consumers and timers that it has opened. -/

inductive ConnectionState where
  | disconnected
  | connecting
  | connected
  | reconnecting
  deriving DecidableEq

/-- Of `ReconnectionConfig`; a timer may fire at any time.  `maxRetries` 0 means
infinite. -/
structure ReconnectionConfig where
  enabled : Bool := true
  maxRetries : Nat := 0

/-- `build` and `attemptReconnection`. -/
inductive Attempt where
  | build
  | reconnect
  deriving DecidableEq

/-- What calls `setupChannel`. -/
inductive Task where
  | attempt (attempt : Attempt)
  | recreation
  deriving DecidableEq

inductive SetupCall where
  | assertExchange
  | assertQueue
  | bindQueue
  | consume
  deriving DecidableEq

def SetupCall.next : SetupCall → Option SetupCall
  | assertExchange => some assertQueue
  | assertQueue => some bindQueue
  | bindQueue => some consume
  | consume => none

inductive CleanupCall where
  | cancel (consumerTag channel : Nat)
  | closeChannel (channel : Nat)
  | closeConnection (connection : Nat)
  deriving DecidableEq

/-- What goes on when `cleanupResources` has ended: `close()` resolves, an
attempt returns because of a close, or it throws. -/
inductive After where
  | close
  | aborted
  | failed (attempt : Attempt)
  deriving DecidableEq

/-- The calls that are awaited. -/
inductive Operation where
  | connect (attempt : Attempt)
  | createChannel (task : Task) (connection : Nat)
  | setup (task : Task) (call : SetupCall) (channel : Nat)
  | cleanup (call : CleanupCall) (after : After)
  deriving DecidableEq

/-- The fields of the connector, and under them what exists outside of it:
`openChannels` with their connections, `consumers` with their channels, and the
objects that have a `close` handler of the connector. -/
structure Connector where
  connectionState : ConnectionState := .connecting
  reconnectAttempts : Nat := 0
  reconnectTimeoutId : Option Nat := none
  isIntentionalClose : Bool := false
  consumerTag : Option Nat := none
  connection : Option Nat := none
  channel : Option Nat := none
  timers : List Nat := []
  openConnections : List Nat := []
  closing : List Nat := []
  openChannels : List (Nat × Nat) := []
  consumers : List (Nat × Nat) := []
  connectionHandlers : List Nat := []
  channelHandlers : List Nat := []
  next : Nat := 0

abbrev Reaction := Connector × List Operation

namespace ReconnectionConfig

/-- The maximum of reconnection attempts is reached. -/
def exceeded (config : ReconnectionConfig) (connector : Connector) : Bool :=
  0 < config.maxRetries && config.maxRetries ≤ connector.reconnectAttempts

end ReconnectionConfig

namespace Connector

variable (config : ReconnectionConfig)

def isOpen (channel : Nat) (connector : Connector) : Bool :=
  connector.openChannels.any (·.1 == channel)

/-- Only these channels are still open, and the consumers on them. -/
def keepChannels (kept : Nat × Nat → Bool) (connector : Connector) :
    Connector :=
  let openChannels := connector.openChannels.filter kept
  { connector with
    openChannels
    consumers := connector.consumers.filter fun consumer =>
      openChannels.any (·.1 == consumer.2) }

def scheduleReconnection (connector : Connector) : Connector :=
  if config.exceeded connector then
    { connector with connectionState := .disconnected }
  else
    { connector with
      reconnectAttempts := connector.reconnectAttempts + 1
      connectionState := .reconnecting
      reconnectTimeoutId := some connector.next
      timers := connector.timers ++ [connector.next]
      next := connector.next + 1 }

/-! `cleanupResources`, call by call.  A call on something that is not open is
rejected at once, which is ignored. -/

def forgetResources (after : After) (connector : Connector) : Reaction :=
  let connector :=
    { connector with
      channel := none, connection := none, connectionState := .disconnected }
  match after with
  | .failed .reconnect => (connector.scheduleReconnection config, [])
  | _ => (connector, [])

def closeConnection (after : After) (connector : Connector) : Reaction :=
  match connector.connection with
  | some connection =>
      if connection ∈ connector.openConnections ∧
          connection ∉ connector.closing then
        ({ connector with closing := connection :: connector.closing },
          [.cleanup (.closeConnection connection) after])
      else connector.forgetResources config after
  | none => connector.forgetResources config after

def clearReconnectTimeout (connector : Connector) : Connector :=
  match connector.reconnectTimeoutId with
  | some timer =>
      { connector with
        timers := connector.timers.erase timer, reconnectTimeoutId := none }
  | none => connector

def closeChannel (after : After) (connector : Connector) : Reaction :=
  let connector := connector.clearReconnectTimeout
  match connector.channel with
  | some channel =>
      if connector.isOpen channel then
        (connector, [.cleanup (.closeChannel channel) after])
      else connector.closeConnection config after
  | none => connector.closeConnection config after

def cleanupResources (after : After) (connector : Connector) : Reaction :=
  match connector.consumerTag, connector.channel with
  | some consumerTag, some channel =>
      if connector.isOpen channel then
        (connector, [.cleanup (.cancel consumerTag channel) after])
      else { connector with consumerTag := none }.closeChannel config after
  | _, _ => connector.closeChannel config after

/-! `setupChannel`, and what its callers do when it has ended. -/

/-- An attempt cleans up and throws; a channel that cannot be created again
triggers a full reconnection. -/
def onSetupFailed (task : Task) (connector : Connector) : Reaction :=
  match task with
  | .attempt attempt => connector.cleanupResources config (.failed attempt)
  | .recreation =>
      if !connector.isIntentionalClose && config.enabled then
        (connector.scheduleReconnection config, [])
      else (connector, [])

def setupConnectionEventHandlers (connector : Connector) : Connector :=
  { connector with
    connectionHandlers :=
      connector.connection.toList ++ connector.connectionHandlers }

def onSetupDone (task : Task) (connector : Connector) : Reaction :=
  match task with
  | .recreation => (connector, [])
  | .attempt attempt =>
      if connector.isIntentionalClose then
        connector.cleanupResources config .aborted
      else
        ({ connector.setupConnectionEventHandlers with
            reconnectAttempts :=
              match attempt with
              | .build => connector.reconnectAttempts
              | .reconnect => 0
            connectionState := .connected }, [])

def setupChannel (task : Task) (connector : Connector) : Reaction :=
  match connector.connection with
  | none => connector.onSetupFailed config task
  | some connection => (connector, [.createChannel task connection])

/-- A call of `setupChannel` has succeeded.  Each of the following ones reads
`this.channel` again. -/
def onSetupCall (task : Task) (call : SetupCall) (connector : Connector) :
    Reaction :=
  match connector.channel with
  | none => connector.onSetupFailed config task
  | some channel =>
      match call.next with
      | some call => (connector, [.setup task call channel])
      | none =>
          { connector with
            channelHandlers :=
              channel :: connector.channelHandlers }.onSetupDone config task

def onConsume (channel : Nat) (connector : Connector) : Connector :=
  { connector with
    consumerTag := some connector.next
    consumers := (connector.next, channel) :: connector.consumers
    next := connector.next + 1 }

/-! The `close` events. -/

def onChannelClose (channel : Nat) (connector : Connector) : Reaction :=
  let connector := connector.keepChannels (·.1 != channel)
  if channel ∈ connector.channelHandlers then
    let connector :=
      { connector with
        channelHandlers := connector.channelHandlers.filter (· != channel)
        channel := none
        consumerTag := none }
    if !connector.isIntentionalClose && connector.connection.isSome then
      connector.setupChannel config .recreation
    else (connector, [])
  else (connector, [])

def dropConnection (connection : Nat) (connector : Connector) : Connector :=
  { connector.keepChannels (·.2 != connection) with
    openConnections := connector.openConnections.filter (· != connection) }

def onConnectionClose (connection : Nat) (connector : Connector) : Connector :=
  let connector := connector.dropConnection connection
  if connection ∈ connector.connectionHandlers then
    let connector :=
      { connector with
        connectionState := .disconnected
        channel := none
        connection := none
        consumerTag := none }
    if !connector.isIntentionalClose && config.enabled then
      connector.scheduleReconnection config
    else connector
  else connector

/-- A call that is awaited has settled.  It can have succeeded only where
`possible` says so. -/
def react (ok : Bool) (operation : Operation) (connector : Connector) :
    Reaction :=
  match operation with
  | .connect attempt =>
      if ok then
        { connector with
          connection := some connector.next
          openConnections := connector.next :: connector.openConnections
          next := connector.next + 1 }.setupChannel config (.attempt attempt)
      else connector.onSetupFailed config (.attempt attempt)
  | .createChannel task connection =>
      if ok then
        ({ connector with
            channel := some connector.next
            openChannels :=
              (connector.next, connection) :: connector.openChannels
            next := connector.next + 1 },
          [.setup task .assertExchange connector.next])
      else connector.onSetupFailed config task
  | .setup task call channel =>
      if ok then
        (if call = .consume then connector.onConsume channel
          else connector).onSetupCall config task call
      else connector.onSetupFailed config task
  | .cleanup (.cancel consumerTag _) after =>
      { connector with
        consumerTag := none
        consumers :=
          if ok then connector.consumers.filter (·.1 != consumerTag)
          else connector.consumers }.closeChannel config after
  | .cleanup (.closeChannel channel) after =>
      if ok then
        let (connector, issued) := connector.onChannelClose config channel
        let (connector, more) := connector.closeConnection config after
        (connector, issued ++ more)
      else connector.closeConnection config after
  | .cleanup (.closeConnection connection) after =>
      -- The event is emitted before the promise of `close()` settles, unless
      -- it has been emitted already.
      (if connection ∈ connector.openConnections then
        connector.onConnectionClose config connection
      else connector).forgetResources config after

end Connector

/-- Nothing succeeds on a connection or a channel that is not open. -/
def Operation.possible (connector : Connector) : Operation → Bool
  | .createChannel _ connection => connection ∈ connector.openConnections
  | .setup _ _ channel => connector.isOpen channel
  | _ => true

/-! The runs. -/

inductive ConnectorEvent where
  | settle (index : Nat) (ok : Bool)
  | timer (timer : Nat)
  | channelClose (channel : Nat)
  | connectionClose (connection : Nat)
  | close

abbrev ConnectorLoop := Loop Operation Connector

def attemptReconnection (connector : Connector) : Reaction :=
  if connector.isIntentionalClose then (connector, [])
  else
    ({ connector with connectionState := .connecting }, [.connect .reconnect])

def close (config : ReconnectionConfig) (connector : Connector) : Reaction :=
  { connector with isIntentionalClose := true }.cleanupResources config .close

namespace ConnectorLoop

/-- `build()` has been called. -/
def built : ConnectorLoop where
  vars := {}
  pending := [.connect .build]

def issue (loop : ConnectorLoop) (reaction : Reaction) : ConnectorLoop where
  vars := reaction.1
  pending := loop.pending ++ reaction.2

def step (config : ReconnectionConfig) (loop : ConnectorLoop) :
    ConnectorEvent → Option ConnectorLoop
  | .settle index ok =>
      if (loop.pending[index]?).all fun operation =>
          !ok || operation.possible loop.vars then
        loop.complete (Connector.react config) index ok
      else none
  | .timer timer =>
      if timer ∈ loop.vars.timers then
        some (loop.issue (attemptReconnection
          { loop.vars with timers := loop.vars.timers.erase timer }))
      else none
  | .channelClose channel =>
      if loop.vars.isOpen channel ∨ channel ∈ loop.vars.channelHandlers then
        some (loop.issue (loop.vars.onChannelClose config channel))
      else none
  | .connectionClose connection =>
      if connection ∈ loop.vars.openConnections then
        some { loop with
          vars := loop.vars.onConnectionClose config connection }
      else none
  | .close => some (loop.issue (AmqpConnector.close config loop.vars))

end ConnectorLoop

end TwakeKickstart.AmqpConnector
