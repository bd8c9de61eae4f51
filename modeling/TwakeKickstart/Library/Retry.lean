import Mathlib.Data.List.Basic

namespace TwakeKickstart.Library

/-! Bounded retries of a call that carries a credential: the credential is kept
until an answer shows that it has gone stale. -/

namespace Retry

/-- What a peer is asked for, with what it answers. -/
inductive Event (τ ρ α ε : Type) where
  | credential (answer : Except ε τ)
  | unsent (error : ε)
  | call (request : ρ) (answer : Except ε α)

variable {τ ρ α ε : Type}

def Event.Fails : Event τ ρ α ε → Prop
  | .credential (.ok _) => False
  | .call _ (.ok _) => False
  | _ => True

section Given

variable (credentials : List (Event τ ρ α ε) → Except ε τ)
  (fetch : List (Event τ ρ α ε) → ρ → Except ε α)

/-- Each answer is the one that the peer gives once all before it has
happened. -/
def Given : List (Event τ ρ α ε) → List (Event τ ρ α ε) → Prop
  | _, [] => True
  | log, event :: events =>
      (match event with
        | .credential answer => answer = credentials log
        | .call request answer => answer = fetch log request
        | .unsent _ => True) ∧ Given (log ++ [event]) events

theorem given_append {log events later : List (Event τ ρ α ε)} :
    Given credentials fetch log (events ++ later) ↔
      Given credentials fetch log events ∧
        Given credentials fetch (log ++ events) later := by
  induction events generalizing log with
  | nil => simp [Given]
  | cons event events ih =>
      simp only [List.cons_append, Given, ih, and_assoc, List.append_assoc,
        List.nil_append]

end Given

/-- A credential that is kept is used, or else another is asked for. -/
inductive Obtains : Option τ → List (Event τ ρ α ε) → τ → Prop
  | kept (credential : τ) : Obtains (some credential) [] credential
  | asked (credential : τ) :
      Obtains none [.credential (.ok credential)] credential

/-- The events and the result of a call that may be retried `budget` times. -/
inductive Course (request : τ → Except ε ρ) (stale : α → Prop) :
    Option τ → Nat → List (Event τ ρ α ε) → Except ε α → Prop
  | refused {budget : Nat} {error : ε} :
      Course request stale none budget [.credential (.error error)]
        (.error error)
  | unsent {kept : Option τ} {budget : Nat} {opening : List (Event τ ρ α ε)}
      {credential : τ} {error : ε} (obtains : Obtains kept opening credential)
      (hrequest : request credential = .error error) :
      Course request stale kept budget (opening ++ [.unsent error])
        (.error error)
  | failed {kept : Option τ} {budget : Nat} {opening : List (Event τ ρ α ε)}
      {credential : τ} {sent : ρ} {error : ε}
      (obtains : Obtains kept opening credential)
      (hrequest : request credential = .ok sent) :
      Course request stale kept budget (opening ++ [.call sent (.error error)])
        (.error error)
  | answered {kept : Option τ} {budget : Nat}
      {opening : List (Event τ ρ α ε)} {credential : τ} {sent : ρ} {answer : α}
      (obtains : Obtains kept opening credential)
      (hrequest : request credential = .ok sent) (fresh : ¬ stale answer) :
      Course request stale kept budget (opening ++ [.call sent (.ok answer)])
        (.ok answer)
  | exhausted {kept : Option τ} {opening : List (Event τ ρ α ε)}
      {credential : τ} {sent : ρ} {answer : α} {error : ε}
      (obtains : Obtains kept opening credential)
      (hrequest : request credential = .ok sent) (hstale : stale answer) :
      Course request stale kept 0 (opening ++ [.call sent (.ok answer)])
        (.error error)
  | again {kept : Option τ} {budget : Nat}
      {opening events : List (Event τ ρ α ε)} {credential : τ} {sent : ρ}
      {answer : α} {result : Except ε α}
      (obtains : Obtains kept opening credential)
      (hrequest : request credential = .ok sent) (hstale : stale answer)
      (next : Course request stale none budget events result) :
      Course request stale kept (budget + 1)
        (opening ++ .call sent (.ok answer) :: events) result

section Calls

/-- The requests that were sent. -/
def calls : List (Event τ ρ α ε) → List ρ
  | [] => []
  | .call request _ :: events => request :: calls events
  | _ :: events => calls events

/-- The answers that arrived. -/
def arrived : List (Event τ ρ α ε) → List α
  | [] => []
  | .call _ (.ok answer) :: events => answer :: arrived events
  | _ :: events => arrived events

variable {kept : Option τ} {opening : List (Event τ ρ α ε)} {credential : τ}

namespace Obtains

theorem eq_asked (obtains : Obtains none opening credential) :
    opening = [.credential (.ok credential)] := by
  cases obtains with
  | asked => rfl

theorem calls_append (obtains : Obtains kept opening credential)
    (events : List (Event τ ρ α ε)) :
    calls (opening ++ events) = calls events := by
  cases obtains with
  | kept credential => rfl
  | asked credential => rfl

theorem arrived_append (obtains : Obtains kept opening credential)
    (events : List (Event τ ρ α ε)) :
    arrived (opening ++ events) = arrived events := by
  cases obtains with
  | kept credential => rfl
  | asked credential => rfl

theorem fails_append (obtains : Obtains kept opening credential)
    (events : List (Event τ ρ α ε)) :
    (∃ event ∈ opening ++ events, event.Fails) ↔
      ∃ event ∈ events, event.Fails := by
  cases obtains with
  | kept credential => rfl
  | asked credential =>
      rw [List.singleton_append, List.exists_mem_cons_iff]
      exact or_iff_right id

theorem calls_eq_nil (obtains : Obtains kept opening credential) :
    calls opening = [] := by
  cases obtains with
  | kept credential => rfl
  | asked credential => rfl

theorem no_call (obtains : Obtains kept opening credential) (request : ρ)
    (answer : Except ε α) : .call request answer ∉ opening := by
  cases obtains with
  | kept credential => exact List.not_mem_nil
  | asked credential =>
      rw [List.mem_singleton]
      exact nofun

theorem split_cases (obtains : Obtains kept opening credential)
    {first sent : ρ} {reply answer : Except ε α}
    {rest before after : List (Event τ ρ α ε)}
    (split : opening ++ .call first reply :: rest =
      before ++ .call sent answer :: after) :
    (before = opening ∧ first = sent) ∨
      ∃ between, before = opening ++ .call first reply :: between ∧
        rest = between ++ .call sent answer :: after := by
  rcases List.append_eq_append_iff.mp split with
    ⟨between, hbefore, hrest⟩ | ⟨between, hopening, hafter⟩
  · rcases List.cons_eq_append_iff.mp hrest with
      ⟨hnil, hcons⟩ | ⟨others, hbetween, hothers⟩
    · injection hcons with hcall
      injection hcall with hsent
      exact .inl ⟨by rw [hbefore, hnil, List.append_nil], hsent.symm⟩
    · exact .inr ⟨others, by rw [hbefore, hbetween], hothers⟩
  · rcases List.cons_eq_append_iff.mp hafter with
      ⟨hnil, hcons⟩ | ⟨others, hbetween, _⟩
    · injection hcons with hcall
      injection hcall with hfirst
      exact .inl ⟨by rw [hopening, hnil, List.append_nil], hfirst⟩
    · refine absurd ?_ (obtains.no_call sent answer)
      rw [hopening, hbetween]
      exact List.mem_append_right before List.mem_cons_self

theorem split_last (obtains : Obtains kept opening credential)
    {first sent : ρ} {reply answer : Except ε α}
    {before after : List (Event τ ρ α ε)}
    (split : opening ++ [.call first reply] =
      before ++ .call sent answer :: after) :
    before = opening ∧ first = sent := by
  rcases obtains.split_cases split with hlast | ⟨between, _, hrest⟩
  · exact hlast
  · exact absurd hrest.symm (List.append_ne_nil_of_right_ne_nil _ nofun)

theorem split_unsent (obtains : Obtains kept opening credential)
    {sent : ρ} {error : ε} {answer : Except ε α}
    {before after : List (Event τ ρ α ε)} :
    opening ++ [.unsent error] ≠ before ++ .call sent answer :: after := by
  intro split
  have hmem : .call sent answer ∈ opening ++ [.unsent error] := by
    rw [split]
    exact List.mem_append_right before List.mem_cons_self
  rw [List.mem_append, List.mem_singleton] at hmem
  exact hmem.elim (obtains.no_call sent answer) nofun

end Obtains

end Calls

namespace Course

variable {request : τ → Except ε ρ} {stale : α → Prop} {kept : Option τ}
  {budget : Nat} {events : List (Event τ ρ α ε)} {result : Except ε α}

theorem calls_length_le
    (course : Course request stale kept budget events result) :
    (calls events).length ≤ budget + 1 := by
  induction course with
  | refused => exact Nat.zero_le _
  | unsent obtains hrequest => simp [obtains.calls_append, calls]
  | failed obtains hrequest => simp [obtains.calls_append, calls]
  | answered obtains hrequest fresh => simp [obtains.calls_append, calls]
  | exhausted obtains hrequest hstale => simp [obtains.calls_append, calls]
  | again obtains hrequest hstale next ih =>
      rw [obtains.calls_append, calls, List.length_cons]
      exact Nat.succ_le_succ ih

theorem calls_built
    (course : Course request stale kept budget events result) :
    ∀ sent ∈ calls events, ∃ credential, request credential = .ok sent := by
  induction course with
  | refused => exact nofun
  | unsent obtains hrequest =>
      rw [obtains.calls_append]
      exact nofun
  | failed obtains hrequest =>
      rw [obtains.calls_append]
      exact List.forall_mem_singleton.mpr ⟨_, hrequest⟩
  | answered obtains hrequest fresh =>
      rw [obtains.calls_append]
      exact List.forall_mem_singleton.mpr ⟨_, hrequest⟩
  | exhausted obtains hrequest hstale =>
      rw [obtains.calls_append]
      exact List.forall_mem_singleton.mpr ⟨_, hrequest⟩
  | again obtains hrequest hstale next ih =>
      rw [obtains.calls_append]
      exact List.forall_mem_cons.mpr ⟨⟨_, hrequest⟩, ih⟩

/-- The result is the first answer that is not stale, and there is none when
there is no such answer. -/
theorem result_eq_ok_iff [DecidablePred stale]
    (course : Course request stale kept budget events result) (answer : α) :
    result = .ok answer ↔
      (arrived events).find? (fun answer => ¬ stale answer) = some answer := by
  induction course with
  | refused => simp [arrived]
  | unsent obtains hrequest => simp [obtains.arrived_append, arrived]
  | failed obtains hrequest => simp [obtains.arrived_append, arrived]
  | answered obtains hrequest fresh =>
      simp [obtains.arrived_append, arrived, fresh]
  | exhausted obtains hrequest hstale =>
      simp [obtains.arrived_append, arrived, hstale]
  | again obtains hrequest hstale next ih =>
      rw [ih, obtains.arrived_append]
      simp [arrived, hstale]

/-- It ends in an error for two reasons only: something failed, or as many
answers as there may be were all stale. -/
theorem result_eq_error_iff
    (course : Course request stale kept budget events result) :
    (∃ error, result = .error error) ↔
      (∃ event ∈ events, event.Fails) ∨
        ((arrived events).length = budget + 1 ∧
          ∀ answer ∈ arrived events, stale answer) := by
  induction course with
  | refused => simp [Event.Fails]
  | unsent obtains hrequest => simp [Event.Fails]
  | failed obtains hrequest => simp [Event.Fails]
  | answered obtains hrequest fresh =>
      rw [obtains.fails_append, obtains.arrived_append]
      simp [arrived, fresh, Event.Fails]
  | exhausted obtains hrequest hstale =>
      rw [obtains.arrived_append]
      simp [arrived, hstale]
  | again obtains hrequest hstale next ih =>
      rw [ih, obtains.fails_append, obtains.arrived_append]
      simp [arrived, hstale, Event.Fails]

/-- The first call carries the credential that is kept, or one that was asked
for. -/
theorem first_call (course : Course request stale kept budget events result)
    {before after : List (Event τ ρ α ε)} {sent : ρ} {answer : Except ε α}
    (split : events = before ++ .call sent answer :: after)
    (first : calls before = []) :
    ∃ credential, Obtains kept before credential ∧
      request credential = .ok sent := by
  cases course with
  | refused => simp [List.cons_eq_append_iff] at split
  | unsent obtains hrequest => exact absurd split obtains.split_unsent
  | failed obtains hrequest =>
      obtain ⟨hbefore, hsent⟩ := obtains.split_last split
      exact ⟨_, hbefore ▸ obtains, hsent ▸ hrequest⟩
  | answered obtains hrequest fresh =>
      obtain ⟨hbefore, hsent⟩ := obtains.split_last split
      exact ⟨_, hbefore ▸ obtains, hsent ▸ hrequest⟩
  | exhausted obtains hrequest hstale =>
      obtain ⟨hbefore, hsent⟩ := obtains.split_last split
      exact ⟨_, hbefore ▸ obtains, hsent ▸ hrequest⟩
  | again obtains hrequest hstale next =>
      rcases obtains.split_cases split with
        ⟨hbefore, hsent⟩ | ⟨between, hbefore, _⟩
      · exact ⟨_, hbefore ▸ obtains, hsent ▸ hrequest⟩
      · rw [hbefore, obtains.calls_append] at first
        exact nomatch first

/-- A call that is made again carries a credential that was obtained after the
stale answer to the call before it. -/
theorem renewed (course : Course request stale kept budget events result)
    {before after : List (Event τ ρ α ε)} {sent : ρ} {answer : Except ε α}
    (split : events = before ++ .call sent answer :: after)
    (again : calls before ≠ []) :
    ∃ earlier previous refusal credential,
      before = earlier ++ [.call previous (.ok refusal),
        .credential (.ok credential)] ∧
      stale refusal ∧ request credential = .ok sent := by
  induction course generalizing before with
  | refused => simp [List.cons_eq_append_iff] at split
  | unsent obtains hrequest => exact absurd split obtains.split_unsent
  | failed obtains hrequest =>
      rw [(obtains.split_last split).1] at again
      exact absurd obtains.calls_eq_nil again
  | answered obtains hrequest fresh =>
      rw [(obtains.split_last split).1] at again
      exact absurd obtains.calls_eq_nil again
  | exhausted obtains hrequest hstale =>
      rw [(obtains.split_last split).1] at again
      exact absurd obtains.calls_eq_nil again
  | @again kept budget opening events held previous refusal result obtains
      hrequest hstale next ih =>
      rcases obtains.split_cases split with
        ⟨hbefore, _⟩ | ⟨between, hbefore, hrest⟩
      · rw [hbefore] at again
        exact absurd obtains.calls_eq_nil again
      · by_cases hbetween : calls between = []
        · obtain ⟨credential, hcredential, hsent⟩ :=
            next.first_call hrest hbetween
          exact ⟨opening, previous, refusal, credential,
            by rw [hbefore, hcredential.eq_asked], hstale, hsent⟩
        · obtain ⟨earlier, other, answered, credential, hsplit, hanswered,
            hsent⟩ := ih hrest hbetween
          refine ⟨opening ++ .call previous (.ok refusal) :: earlier, other,
            answered, credential, ?_, hanswered, hsent⟩
          rw [hbefore, hsplit, List.append_assoc, List.cons_append]

end Course

end Retry

end TwakeKickstart.Library
