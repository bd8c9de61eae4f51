import Mathlib.Data.List.Basic

namespace TwakeKickstart.Library

/-! Publishers of at most one value, each run over a state. -/

inductive Signal (α : Type) where
  | value (value : α)
  | empty
  | error (message : String)

def Mono (World α : Type) : Type := World → World × Signal α

namespace Mono

variable {World α β : Type}

def just (value : α) : Mono World α := fun world => (world, .value value)

def empty : Mono World α := fun world => (world, .empty)

def error (message : String) : Mono World α :=
  fun world => (world, .error message)

def flatMap (mono : Mono World α) (f : α → Mono World β) : Mono World β :=
  fun world =>
    match mono world with
    | (next, .value value) => f value next
    | (next, .empty) => (next, .empty)
    | (next, .error message) => (next, .error message)

/-- An error is passed over. -/
def onErrorEmpty (mono : Mono World α) : Mono World α :=
  fun world =>
    match mono world with
    | (next, .error _) => (next, .empty)
    | (next, .value value) => (next, .value value)
    | (next, .empty) => (next, .empty)

/-- The items one after the other, up to the first error. -/
def concatMap (f : α → Mono World Unit) : List α → Mono World Unit
  | [] => empty
  | item :: items => fun world =>
      match f item world with
      | (next, .error message) => (next, .error message)
      | (next, .value _) => concatMap f items next
      | (next, .empty) => concatMap f items next

/-- Nothing but its completion is left of a publisher. -/
def andThen (mono : Mono World α) : Mono World Unit :=
  fun world =>
    match mono world with
    | (next, .error message) => (next, .error message)
    | (next, .value _) => (next, .empty)
    | (next, .empty) => (next, .empty)

def NoError (mono : Mono World α) : Prop :=
  ∀ world message, (mono world).2 ≠ .error message

theorem noError_onErrorEmpty (mono : Mono World α) :
    NoError mono.onErrorEmpty := by
  intro world message
  rw [onErrorEmpty]
  split <;> exact nofun

@[simp] theorem onErrorEmpty_fst (mono : Mono World α) (world : World) :
    (mono.onErrorEmpty world).1 = (mono world).1 := by
  rw [onErrorEmpty]
  split <;> simp [*]

theorem concatMap_eq {f : α → Mono World Unit} (noError : ∀ a, NoError (f a))
    (items : List α) (world : World) :
    concatMap f items world =
      (items.foldl (fun world item => (f item world).1) world, .empty) := by
  induction items generalizing world with
  | nil => rfl
  | cons item items ih =>
      cases h : f item world with
      | mk next signal =>
          simp only [concatMap, List.foldl_cons, h]
          cases signal with
          | value value => exact ih next
          | empty => exact ih next
          | error message =>
              exact absurd (congrArg Prod.snd h) (noError item world message)

end Mono

end TwakeKickstart.Library
