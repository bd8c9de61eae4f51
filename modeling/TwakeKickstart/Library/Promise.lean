import Mathlib.Data.Option.Basic

namespace TwakeKickstart.Library

/-! Promises made by hand: an executor starts a chain of handlers, and what the
handlers signal settles the promise. -/

/-- `none` while the promise is pending. -/
abbrev Settlement (ε α : Type) := Option (Except ε α)

/-- The calls of `resolve` and `reject` that a chain makes, in order, and how
the chain's own last promise settles. -/
structure Chain (ε α β : Type) where
  signals : List (Except ε α)
  outcome : Settlement ε β

namespace Chain

variable {ε α β γ : Type}

def await (promise : Settlement ε β) : Chain ε α β := ⟨[], promise⟩

def throw (error : ε) : Chain ε α β := ⟨[], some (.error error)⟩

/-- A handler that signals nothing. -/
def done : Chain ε α Unit := ⟨[], some (.ok ())⟩

def resolve (value : α) : Chain ε α Unit := ⟨[.ok value], some (.ok ())⟩

def reject (error : ε) : Chain ε α Unit := ⟨[.error error], some (.ok ())⟩

/-- `chain.then(handler)` -/
def andThen (chain : Chain ε α β) (handler : β → Chain ε α γ) :
    Chain ε α γ :=
  match chain.outcome with
  | some (.ok value) =>
      let next := handler value
      ⟨chain.signals ++ next.signals, next.outcome⟩
  | some (.error error) => ⟨chain.signals, some (.error error)⟩
  | none => ⟨chain.signals, none⟩

/-- `chain.catch(handler)` -/
def onError (chain : Chain ε α β) (handler : ε → Chain ε α β) :
    Chain ε α β :=
  match chain.outcome with
  | some (.error error) =>
      let next := handler error
      ⟨chain.signals ++ next.signals, next.outcome⟩
  | _ => chain

/-- The promise that the executor makes: the first signal counts. -/
def settle (chain : Chain ε α β) : Settlement ε α := chain.signals.head?

/-- Nothing in the chain waits for ever. -/
def Ends (chain : Chain ε α β) : Prop := chain.outcome ≠ none

section Settling

variable (value : β) (error : ε) (handler : β → Chain ε α γ)

theorem andThen_ok :
    (await (some (.ok value))).andThen handler = handler value := by
  rw [andThen, await]
  rfl

theorem andThen_error :
    (await (some (.error error))).andThen handler = throw error := rfl

theorem done_ends : (done : Chain ε α Unit).Ends := nofun

theorem Ends.andThen {chain : Chain ε α β} {handler : β → Chain ε α γ}
    (ends : chain.Ends) (next : ∀ value, (handler value).Ends) :
    (chain.andThen handler).Ends := by
  rw [Ends, Chain.andThen]
  cases houtcome : chain.outcome with
  | none => exact absurd houtcome ends
  | some result =>
      cases result with
      | ok value => exact next value
      | error error => exact nofun

theorem Ends.onError_done {chain : Chain ε α Unit} (ends : chain.Ends) :
    (chain.onError fun _ => done).outcome = some (.ok ()) := by
  rw [onError]
  cases houtcome : chain.outcome with
  | none => exact absurd houtcome ends
  | some result =>
      cases result with
      | ok value => exact houtcome
      | error error => rfl

variable (rescue : ε → Chain ε α Unit)

theorem onError_throw :
    (throw error : Chain ε α Unit).onError rescue = rescue error := rfl

theorem settle_resolve (result : α) :
    ((resolve result).onError rescue).settle = some (.ok result) := rfl

end Settling

end Chain

end TwakeKickstart.Library
