import Mathlib.Data.List.Nodup
import Mathlib.Data.List.Perm.Basic
import TwakeKickstart.Library.Transition

namespace TwakeKickstart.AmqpConnector

open Library

/-! `createMessageConsumer`: the callback that hands each message to the
handler and then acknowledges or rejects it, while the channels of the
connector come and go. -/

/-- A message that waits for its handler: the channel that delivered it and the
one that the callback has captured. -/
structure Delivery where
  number : Nat
  channel : Nat
  captured : Nat
  deriving DecidableEq

inductive HandlerOutcome where
  | resolved
  | rejected (nullish : Bool)
  deriving DecidableEq

/-- An `ack` or a `nack` that has been sent. -/
structure Settlement where
  delivery : Delivery
  channel : Nat
  acknowledged : Bool
  deriving DecidableEq

/-- `channel` is the field of the connector; the open channels are those on
which `ack` and `nack` do not throw.  The rest is what has happened. -/
structure Consumer where
  channel : Option Nat := none
  openChannels : List Nat := []
  delivered : Nat := 0
  processing : List Delivery := []
  succeeded : List Delivery := []
  settled : List Settlement := []
  rejected : List Delivery := []

/-- The field is written when a channel is created and cleared when it closes;
`deliver channel false` is the `null` of a consumer that the server cancels. -/
inductive ConsumerEvent where
  | opens (channel : Nat)
  | closes (channel : Nat)
  | assign (channel : Option Nat)
  | deliver (channel : Nat) (message : Bool)
  | settle (index : Nat) (outcome : HandlerOutcome)

namespace Consumer

def onMessage (consumer : Consumer) (channel : Nat) : Consumer :=
  match consumer.channel with
  | none => { consumer with delivered := consumer.delivered + 1 }
  | some captured =>
      { consumer with
        delivered := consumer.delivered + 1
        processing := consumer.processing ++
          [⟨consumer.delivered, channel, captured⟩] }

def send (consumer : Consumer) (delivery : Delivery) (acknowledged : Bool) :
    Consumer :=
  { consumer with
    settled :=
      consumer.settled ++ [⟨delivery, delivery.captured, acknowledged⟩] }

/-- The promise of the callback is rejected. -/
def reject (consumer : Consumer) (delivery : Delivery) : Consumer :=
  { consumer with rejected := consumer.rejected ++ [delivery] }

/-- The `catch` of the callback.  It reads `error.message` for the logger. -/
def onError (logger : Bool) (delivery : Delivery) (nullish : Bool)
    (consumer : Consumer) : Consumer :=
  if logger && nullish then consumer.reject delivery
  else if delivery.captured ∈ consumer.openChannels then
    consumer.send delivery false
  else consumer.reject delivery

def onHandled (logger : Bool) (delivery : Delivery)
    (outcome : HandlerOutcome) (consumer : Consumer) : Consumer :=
  match outcome with
  | .rejected nullish => onError logger delivery nullish consumer
  | .resolved =>
      let consumer :=
        { consumer with succeeded := consumer.succeeded ++ [delivery] }
      if delivery.captured ∈ consumer.openChannels then
        consumer.send delivery true
      else onError logger delivery false consumer

def step (logger : Bool) (consumer : Consumer) :
    ConsumerEvent → Option Consumer
  | .opens channel =>
      some { consumer with openChannels := channel :: consumer.openChannels }
  | .closes channel =>
      some { consumer with
        openChannels := consumer.openChannels.filter (· != channel) }
  | .assign channel => some { consumer with channel }
  | .deliver channel message =>
      if channel ∈ consumer.openChannels then
        some (if message then consumer.onMessage channel else consumer)
      else none
  | .settle index outcome =>
      match consumer.processing[index]? with
      | none => none
      | some delivery =>
          some (onHandled logger delivery outcome
            { consumer with
              processing := consumer.processing.eraseIdx index })

end Consumer

/-! The discipline, and the steps that keep it. -/

structure Disciplined (consumer : Consumer) : Prop where
  once : (consumer.settled.map Settlement.delivery).Nodup
  ownChannel : ∀ settlement ∈ consumer.settled,
    settlement.channel = settlement.delivery.channel
  notAfterSuccess : ∀ settlement ∈ consumer.settled,
    settlement.acknowledged = false →
    settlement.delivery ∉ consumer.succeeded
  neverRejects : consumer.rejected = []

/-- A message comes on the channel of the connector, when it has one, and the
channel that was captured is open when the handler ends. -/
def Orderly (logger : Bool) (consumer : Consumer) : ConsumerEvent → Prop
  | .deliver channel true => ∀ current ∈ consumer.channel, current = channel
  | .settle index outcome =>
      (∀ delivery, consumer.processing[index]? = some delivery →
        delivery.captured ∈ consumer.openChannels) ∧
      ¬ (logger = true ∧ outcome = .rejected true)
  | _ => True

/-- What the runs keep, beside the discipline itself. -/
structure Tracked (consumer : Consumer) : Prop where
  disciplined : Disciplined consumer
  numbered : ∀ delivery ∈ consumer.processing ++
    consumer.settled.map Settlement.delivery,
    delivery.number < consumer.delivered
  distinct : consumer.processing.Nodup
  unsettled : ∀ delivery ∈ consumer.processing,
    delivery ∉ consumer.settled.map Settlement.delivery ∧
    delivery ∉ consumer.succeeded
  captured : ∀ delivery ∈ consumer.processing,
    delivery.captured = delivery.channel
  known : ∀ delivery ∈ consumer.succeeded,
    delivery.number < consumer.delivered

section Steps

variable {logger : Bool} {consumer after : Consumer}

theorem Tracked.sameRecord (tracked : Tracked consumer) (channel : Option Nat)
    (openChannels : List Nat) :
    Tracked { consumer with channel, openChannels } :=
  ⟨⟨tracked.disciplined.once, tracked.disciplined.ownChannel,
    tracked.disciplined.notAfterSuccess, tracked.disciplined.neverRejects⟩,
    tracked.numbered, tracked.distinct, tracked.unsettled, tracked.captured,
    tracked.known⟩

theorem Tracked.onMessage (tracked : Tracked consumer) {channel : Nat}
    (own : ∀ current ∈ consumer.channel, current = channel) :
    Tracked (consumer.onMessage channel) := by
  have hnumbered : ∀ delivery ∈ consumer.processing ++
      consumer.settled.map Settlement.delivery,
      delivery.number < consumer.delivered + 1 := fun delivery hdelivery =>
    Nat.lt_succ_of_lt (tracked.numbered delivery hdelivery)
  unfold Consumer.onMessage
  split
  · exact ⟨⟨tracked.disciplined.once, tracked.disciplined.ownChannel,
      tracked.disciplined.notAfterSuccess, tracked.disciplined.neverRejects⟩,
      hnumbered, tracked.distinct, tracked.unsettled, tracked.captured,
      fun delivery h => Nat.lt_succ_of_lt (tracked.known delivery h)⟩
  · rename_i captured hcaptured
    have hnew : ∀ delivery : Delivery, delivery.number < consumer.delivered →
        delivery ≠ ⟨consumer.delivered, channel, captured⟩ := by
      rintro delivery hlt rfl
      exact absurd hlt (Nat.lt_irrefl _)
    refine ⟨⟨tracked.disciplined.once, tracked.disciplined.ownChannel,
      tracked.disciplined.notAfterSuccess, tracked.disciplined.neverRejects⟩,
      ?_, ?_, ?_, ?_, fun delivery h =>
        Nat.lt_succ_of_lt (tracked.known delivery h)⟩
    · intro delivery hdelivery
      rw [List.append_assoc, List.mem_append, List.mem_append,
        List.mem_singleton] at hdelivery
      rcases hdelivery with hold | rfl | hsettled
      · exact hnumbered delivery (List.mem_append_left _ hold)
      · exact Nat.lt_succ_self _
      · exact hnumbered delivery (List.mem_append_right _ hsettled)
    · refine List.nodup_append.mpr ⟨tracked.distinct, List.nodup_singleton _,
        fun delivery hdelivery other hother => ?_⟩
      rw [List.mem_singleton.mp hother]
      exact hnew delivery
        (tracked.numbered delivery (List.mem_append_left _ hdelivery))
    · intro delivery hdelivery
      rcases List.mem_append.mp hdelivery with hold | hlast
      · exact tracked.unsettled delivery hold
      · rw [List.mem_singleton.mp hlast]
        refine ⟨fun hsettled => ?_, fun hsucceeded => ?_⟩
        · exact hnew _ (tracked.numbered _
            (List.mem_append_right _ hsettled)) rfl
        · exact hnew _ (tracked.known _ hsucceeded) rfl
    · intro delivery hdelivery
      rcases List.mem_append.mp hdelivery with hold | hlast
      · exact tracked.captured delivery hold
      · rw [List.mem_singleton.mp hlast]
        exact own captured hcaptured

theorem onHandled_open {delivery : Delivery} {outcome : HandlerOutcome}
    (isOpen : delivery.captured ∈ consumer.openChannels)
    (readable : ¬ (logger = true ∧ outcome = .rejected true)) :
    Consumer.onHandled logger delivery outcome consumer =
      match outcome with
      | .resolved =>
          { consumer with succeeded := consumer.succeeded ++ [delivery] }.send
            delivery true
      | .rejected _ => consumer.send delivery false := by
  cases outcome with
  | resolved => simp [Consumer.onHandled, isOpen]
  | rejected nullish =>
      have hread : ¬ (logger && nullish) = true := by
        intro hboth
        obtain ⟨hlogger, hnullish⟩ := Bool.and_eq_true_iff.mp hboth
        exact readable ⟨hlogger, by rw [hnullish]⟩
      simp only [Consumer.onHandled, Consumer.onError, if_neg hread,
        if_pos isOpen]

/-- The handler of this message has ended, and nothing has been sent for it. -/
structure Ended (consumer : Consumer) (delivery : Delivery) : Prop where
  waiting : delivery ∉ consumer.processing
  unsettled : delivery ∉ consumer.settled.map Settlement.delivery
  numbered : delivery.number < consumer.delivered
  captured : delivery.captured = delivery.channel

theorem Tracked.finish (tracked : Tracked consumer) {index : Nat}
    {delivery : Delivery}
    (waiting : consumer.processing[index]? = some delivery) :
    let finished :=
      { consumer with processing := consumer.processing.eraseIdx index }
    Tracked finished ∧ Ended finished delivery ∧
      delivery ∉ consumer.succeeded := by
  have hmem : delivery ∈ consumer.processing := List.mem_of_getElem? waiting
  have hsub : consumer.processing.eraseIdx index ⊆ consumer.processing :=
    fun _ hother => List.mem_of_mem_eraseIdx hother
  obtain ⟨hunsettled, hunknown⟩ := tracked.unsettled delivery hmem
  obtain ⟨hlt, hget⟩ := List.getElem?_eq_some_iff.mp waiting
  have hperm := List.getElem_cons_eraseIdx_perm hlt
  rw [hget] at hperm
  obtain ⟨hgone, hdistinct⟩ :=
    List.nodup_cons.mp (hperm.nodup_iff.mpr tracked.distinct)
  refine ⟨⟨⟨tracked.disciplined.once, tracked.disciplined.ownChannel,
    tracked.disciplined.notAfterSuccess, tracked.disciplined.neverRejects⟩,
    ?_, hdistinct, fun other hother => tracked.unsettled other (hsub hother),
    fun other hother => tracked.captured other (hsub hother), tracked.known⟩,
    ⟨hgone, hunsettled, tracked.numbered delivery
      (List.mem_append_left _ hmem), tracked.captured delivery hmem⟩,
    hunknown⟩
  intro other hother
  refine tracked.numbered other ?_
  rcases List.mem_append.mp hother with hwaiting | hsettled
  · exact List.mem_append_left _ (hsub hwaiting)
  · exact List.mem_append_right _ hsettled

theorem Tracked.succeed (tracked : Tracked consumer) {delivery : Delivery}
    (ended : Ended consumer delivery) :
    Tracked { consumer with succeeded := consumer.succeeded ++ [delivery] } := by
  refine ⟨⟨tracked.disciplined.once, tracked.disciplined.ownChannel, ?_,
    tracked.disciplined.neverRejects⟩, tracked.numbered, tracked.distinct, ?_,
    tracked.captured, ?_⟩
  · intro settlement hsettlement hnack hsucceeded
    rcases List.mem_append.mp hsucceeded with hbefore | hnow
    · exact tracked.disciplined.notAfterSuccess settlement hsettlement hnack
        hbefore
    · refine ended.unsettled (List.mem_map.mpr ⟨settlement, hsettlement, ?_⟩)
      exact List.mem_singleton.mp hnow
  · intro other hother
    obtain ⟨hunsettled, hunknown⟩ := tracked.unsettled other hother
    refine ⟨hunsettled, fun hsucceeded => ?_⟩
    rcases List.mem_append.mp hsucceeded with hbefore | hnow
    · exact hunknown hbefore
    · rw [List.mem_singleton.mp hnow] at hother
      exact ended.waiting hother
  · intro other hother
    rcases List.mem_append.mp hother with hbefore | hnow
    · exact tracked.known other hbefore
    · rw [List.mem_singleton.mp hnow]
      exact ended.numbered

theorem Tracked.send (tracked : Tracked consumer) {delivery : Delivery}
    (ended : Ended consumer delivery) (acknowledged : Bool)
    (failed : acknowledged = false → delivery ∉ consumer.succeeded) :
    Tracked (consumer.send delivery acknowledged) := by
  have hdeliveries :
      (consumer.send delivery acknowledged).settled.map Settlement.delivery =
        consumer.settled.map Settlement.delivery ++ [delivery] := by
    simp [Consumer.send]
  refine ⟨⟨?_, ?_, ?_, tracked.disciplined.neverRejects⟩, ?_,
    tracked.distinct, ?_, tracked.captured, tracked.known⟩
  · rw [hdeliveries]
    refine List.nodup_append.mpr ⟨tracked.disciplined.once,
      List.nodup_singleton _, fun other hother last hlast => ?_⟩
    rw [List.mem_singleton.mp hlast]
    rintro rfl
    exact ended.unsettled hother
  · intro settlement hsettlement
    rcases List.mem_append.mp hsettlement with hold | hlast
    · exact tracked.disciplined.ownChannel settlement hold
    · rw [List.mem_singleton.mp hlast]
      exact ended.captured
  · intro settlement hsettlement hnack
    rcases List.mem_append.mp hsettlement with hold | hlast
    · exact tracked.disciplined.notAfterSuccess settlement hold hnack
    · rw [List.mem_singleton.mp hlast] at hnack ⊢
      exact failed hnack
  · intro other hother
    rw [hdeliveries, ← List.append_assoc] at hother
    rcases List.mem_append.mp hother with hold | hlast
    · exact tracked.numbered other hold
    · rw [List.mem_singleton.mp hlast]
      exact ended.numbered
  · intro other hother
    obtain ⟨hunsettled, hunknown⟩ := tracked.unsettled other hother
    refine ⟨?_, hunknown⟩
    rw [hdeliveries]
    intro hsettled
    rcases List.mem_append.mp hsettled with hold | hlast
    · exact hunsettled hold
    · rw [List.mem_singleton.mp hlast] at hother
      exact ended.waiting hother

theorem Tracked.settle (tracked : Tracked consumer) {index : Nat}
    {delivery : Delivery} {outcome : HandlerOutcome}
    (waiting : consumer.processing[index]? = some delivery)
    (isOpen : delivery.captured ∈ consumer.openChannels)
    (readable : ¬ (logger = true ∧ outcome = .rejected true)) :
    Tracked (Consumer.onHandled logger delivery outcome
      { consumer with processing := consumer.processing.eraseIdx index }) := by
  obtain ⟨hfinished, hended, hunknown⟩ := tracked.finish waiting
  rw [onHandled_open (by exact isOpen) readable]
  cases outcome with
  | resolved =>
      refine (hfinished.succeed hended).send ?_ true (fun h => by cases h)
      exact ⟨hended.waiting, hended.unsettled, hended.numbered,
        hended.captured⟩
  | rejected nullish =>
      exact hfinished.send hended false (fun _ => hunknown)

theorem Tracked.step (tracked : Tracked consumer) {event : ConsumerEvent}
    (orderly : Orderly logger consumer event)
    (stepped : consumer.step logger event = some after) : Tracked after := by
  cases event with
  | opens channel =>
      cases stepped
      exact tracked.sameRecord _ _
  | closes channel =>
      cases stepped
      exact tracked.sameRecord _ _
  | assign channel =>
      cases stepped
      exact tracked.sameRecord _ _
  | deliver channel message =>
      simp only [Consumer.step] at stepped
      split at stepped
      · cases stepped
        cases message with
        | false => exact tracked
        | true => exact tracked.onMessage orderly
      · cases stepped
  | settle index outcome =>
      simp only [Consumer.step] at stepped
      split at stepped
      · cases stepped
      · rename_i delivery hwaiting
        cases stepped
        exact tracked.settle hwaiting (orderly.1 delivery hwaiting) orderly.2

end Steps

/-- While messages come on the channel of the connector and that channel is
open when their handler ends, each is settled once, on its own channel, and the
callback never rejects. -/
theorem consumer_disciplined {logger : Bool} {consumer : Consumer}
    (reached : Reachable (Consumer.step logger) (Orderly logger) {}
      consumer) : Disciplined consumer := by
  have htracked : Tracked consumer := by
    refine reached.invariant Tracked ?_
      fun before event after tracked orderly stepped =>
        tracked.step orderly stepped
    refine ⟨⟨List.nodup_nil, ?_, ?_, rfl⟩, ?_, List.nodup_nil, ?_, ?_, ?_⟩
    all_goals
      intro _ hmem
      cases hmem
  exact htracked.disciplined

/-! Two messages, of which the first to end is refused, and another one on the
channel that replaces theirs. -/

def orderly (consumer : Consumer) : ConsumerEvent → Bool
  | .deliver channel true => consumer.channel.all (· == channel)
  | .settle index outcome =>
      (consumer.processing[index]?).all
          (consumer.openChannels.contains ·.captured) &&
        match outcome with
        | .rejected true => false
        | _ => true
  | _ => true

theorem orderly_sound (consumer : Consumer) (event : ConsumerEvent)
    (h : orderly consumer event = true) : Orderly true consumer event := by
  cases event with
  | deliver channel message =>
      cases message with
      | false => trivial
      | true =>
          intro current hcurrent
          rw [orderly, Option.mem_def.mp hcurrent] at h
          exact beq_iff_eq.mp h
  | settle index outcome =>
      obtain ⟨hopen, houtcome⟩ := Bool.and_eq_true_iff.mp h
      constructor
      · intro delivery hdelivery
        rw [hdelivery] at hopen
        exact List.contains_iff_mem.mp hopen
      · rintro ⟨_, rfl⟩
        cases houtcome
  | _ => trivial

def channelReplaced : List ConsumerEvent :=
  [.opens 1, .assign (some 1), .deliver 1 true, .deliver 1 true,
    .settle 1 (.rejected false), .settle 0 .resolved, .closes 1, .assign none,
    .opens 2, .assign (some 2), .deliver 2 true, .settle 0 .resolved]

theorem consumer_disciplined_once :
    ∃ consumer, runEvents (Consumer.step true) orderly channelReplaced {} =
        some consumer ∧
      consumer.settled = [⟨⟨1, 1, 1⟩, 1, false⟩, ⟨⟨0, 1, 1⟩, 1, true⟩,
        ⟨⟨2, 2, 2⟩, 2, true⟩] ∧
      Disciplined consumer := by
  have hrun : ∃ consumer, runEvents (Consumer.step true) orderly
      channelReplaced {} = some consumer ∧
      consumer.settled = [⟨⟨1, 1, 1⟩, 1, false⟩, ⟨⟨0, 1, 1⟩, 1, true⟩,
        ⟨⟨2, 2, 2⟩, 2, true⟩] := ⟨_, rfl, rfl⟩
  obtain ⟨consumer, hconsumer, hsettled⟩ := hrun
  exact ⟨consumer, hconsumer, hsettled,
    consumer_disciplined (reachable_of_runEvents orderly_sound hconsumer)⟩

/-! A channel that closes while the handler runs. -/

def channelCloses : List ConsumerEvent :=
  [.opens 1, .assign (some 1), .deliver 1 true, .closes 1, .assign none,
    .settle 0 .resolved]

theorem closed_channel_escapes :
    ¬ ∀ (logger : Bool) (consumer : Consumer),
      Reachable (Consumer.step logger) (fun _ _ => True) {} consumer →
      Disciplined consumer := by
  intro hall
  have hrun : ∃ consumer, runEvents (Consumer.step true) (fun _ _ => true)
      channelCloses {} = some consumer ∧
      consumer.rejected = [⟨0, 1, 1⟩] := ⟨_, rfl, rfl⟩
  obtain ⟨consumer, hconsumer, hrejected⟩ := hrun
  have hreached : Reachable (Consumer.step true) (fun _ _ => True) {}
      consumer := reachable_of_runEvents (fun _ _ _ => trivial) hconsumer
  have hnever := (hall true consumer hreached).neverRejects
  rw [hrejected] at hnever
  cases hnever

end TwakeKickstart.AmqpConnector
