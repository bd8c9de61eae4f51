import TwakeKickstart.TomServer.Vault.RecoveryWords

namespace TwakeKickstart.TomServer.Vault

open Library
open Library.Linearizable
open Addressbook (columnText)

/-! Concurrent requests to the vault look as if each had taken effect at one
moment. -/

/-- The words of each user. -/
abbrev Contents := String → Option (Option String)

namespace Request

/-- The reply to a request whose words cannot be used. -/
def invalid : Request → Option Reply
  | save _ words =>
      match missing words with
      | .error message => some (.failed message)
      | .ok true =>
          some ⟨400, .obj [("error", .str "Missing recovery words")]⟩
      | .ok false => none
  | update _ words =>
      match missing words with
      | .error message => some (.failed message)
      | .ok true =>
          some ⟨400, .obj [("message", .str "Missing recovery sentence")]⟩
      | .ok false => none
  | get _ => none
  | delete _ => none

def onWords : Request → Except String (List Row) → Handler
  | save userId words => saveUnlessStored userId words
  | get _ => showWords
  | update userId words => updateIfStored userId words
  | delete userId => deleteIfStored userId

theorem handler_eq (request : Request) :
    request.handler =
      match request.invalid with
      | some reply => .done reply
      | none => .call (wordsOf request.userId) request.onWords := by
  cases request with
  | get userId => rfl
  | delete userId => rfl
  | save userId words =>
      simp only [handler, saveRecoveryWords, invalid]
      cases missing words with
      | error message => rfl
      | ok isMissing => cases isMissing <;> rfl
  | update userId words =>
      simp only [handler, updateRecoveryWords, invalid]
      cases missing words with
      | error message => rfl
      | ok isMissing => cases isMissing <;> rfl

theorem onWords_error (request : Request) (message : String) :
    request.onWords (.error message) = .done (.failed message) := by
  cases request <;> rfl

end Request

/-- What one request does to the words.  `faults` are the messages of
statements whose promise was rejected by the database. -/
inductive Does (engine : Engine) (faults : String → Prop) :
    Request → Reply → Contents → Contents → Prop
  | invalid {request reply vault} : request.invalid = some reply →
      Does engine faults request reply vault vault
  | failed {request message vault} : faults message →
      Does engine faults request (.failed message) vault vault
  | saved {userId words vault reply} :
      (Request.save userId words).invalid = none → vault userId = none →
      (reply = .saved ∨ ∃ message, faults message ∧ reply = .failed message) →
      Does engine faults (.save userId words) reply vault
        (Function.update vault userId (some (columnText engine.driver words)))
  | alreadySaved {userId words vault reply} : vault userId ≠ none →
      (reply = .alreadySaved ∨ reply = .failed engine.keyTaken) →
      Does engine faults (.save userId words) reply vault vault
  | shown {userId words vault} : vault userId = some words →
      Does engine faults (.get userId) (.shown words) vault vault
  | noWords {userId vault} : vault userId = none →
      Does engine faults (.get userId) .noWords vault vault
  | updated {userId words vault reply} :
      (Request.update userId words).invalid = none → vault userId ≠ none →
      (reply = .updated ∨ ∃ message, faults message ∧ reply = .failed message) →
      Does engine faults (.update userId words) reply vault
        (Function.update vault userId (some (columnText engine.driver words)))
  | nothingToUpdate {userId words vault} : vault userId = none →
      Does engine faults (.update userId words) .nothingToUpdate vault vault
  | nothingToDelete {userId vault} : vault userId = none →
      Does engine faults (.delete userId) .noWords vault vault

/-- Requests take effect one at a time, but for those that delete the same
words: they may do so together. -/
inductive Effects (engine : Engine) (faults : String → Prop) :
    Spec Request Reply Contents
  | one {request reply vault after} :
      Does engine faults request reply vault after →
      Effects engine faults [(request, reply)] vault after
  | deleted {userId vault} {effects : List (Request × Reply)} :
      effects ≠ [] →
      (∀ effect ∈ effects, effect.1 = .delete userId ∧
        (effect.2 = .deleted ∨
          ∃ message, faults message ∧ effect.2 = .failed message)) →
      vault userId ≠ none →
      Effects engine faults effects vault (Function.update vault userId none)

variable {engine : Engine} {faults : String → Prop}

theorem Does.keeps {request : Request} {reply : Reply} {vault after : Contents}
    {userId : String} (does : Does engine faults request reply vault after)
    (h : vault userId ≠ none) : after userId ≠ none := by
  have written : ∀ (other : String) (words : Option String),
      Function.update vault other (some words) userId ≠ none := by
    intro other words
    rw [Function.update_apply]
    split
    · exact Option.some_ne_none _
    · exact h
  cases does with
  | saved _ _ _ => exact written _ _
  | updated _ _ _ => exact written _ _
  | _ => exact h

theorem Effects.ne_nil {effects : List (Request × Reply)}
    {vault after : Contents} (does : Effects engine faults effects vault after) :
    effects ≠ [] := by
  cases does with
  | one does => exact List.cons_ne_nil _ _
  | deleted hne _ _ => exact hne

theorem Effects.removal {effects : List (Request × Reply)}
    {vault after : Contents} {userId : String}
    (does : Effects engine faults effects vault after)
    (hbefore : vault userId ≠ none) (hafter : after userId = none) :
    (∀ effect ∈ effects, effect.1 = .delete userId ∧
      (effect.2 = .deleted ∨
        ∃ message, faults message ∧ effect.2 = .failed message)) ∧
      after = Function.update vault userId none := by
  cases does with
  | one does => exact absurd hafter (does.keeps hbefore)
  | deleted hne hall hstored =>
      rename_i other
      by_cases heq : userId = other
      · subst heq
        exact ⟨hall, rfl⟩
      · rw [Function.update_of_ne heq] at hafter
        exact absurd hafter hbefore

/-! The words of a user that a request has found. -/

section Seen

variable {start : Contents} {history : History Request Reply}
variable {order before after : List (Turn Request Reply Contents)}
variable {turn : Turn Request Reply Contents} {entry : Entry Request Reply}
variable {id : Nat} {userId : String}

/-- The words are still there, or they were taken away after every operation
that precedes the request. -/
def Seen (start : Contents) (history : History Request Reply)
    (order : List (Turn Request Reply Contents)) (id : Nat) (userId : String) :
    Prop :=
  stateAfter start order userId ≠ none ∨
    ∃ before turn after, order = before ++ turn :: after ∧
      stateAfter start before userId ≠ none ∧ turn.after userId = none ∧
      ∀ first, Precedes history first id → first ∈ ids before

theorem Seen.marked {mark : Mark Request Reply}
    (hmark : ∀ request, mark ≠ .invoked id request)
    (seen : Seen start history order id userId) :
    Seen start (history ++ [mark]) order id userId := by
  rcases seen with hnow | ⟨before, turn, after, horder, hsome, hnone, hall⟩
  · exact .inl hnow
  · refine .inr ⟨before, turn, after, horder, hsome, hnone, ?_⟩
    exact fun first precedes => hall first ((precedes_append hmark).mp precedes)

theorem Seen.now {state : Contents}
    (linearizes : Linearizes (Effects engine faults) start history order)
    (seen : Seen start history order id userId) :
    Seen start history (order ++ [⟨[entry], state⟩]) id userId := by
  rcases seen with hnow | ⟨before, turn, after, rfl, hsome, hnone, hall⟩
  · by_cases hstate : state userId = none
    · exact .inr ⟨order, _, [], rfl, hnow, hstate, fun first precedes =>
        linearizes.precedes_mem precedes⟩
    · refine .inl ?_
      rw [stateAfter_append]
      exact hstate
  · exact .inr ⟨before, turn, after ++ [⟨[entry], state⟩],
      by simp, hsome, hnone, hall⟩

theorem Seen.between {state : Contents}
    (keeps : ∀ userId, stateAfter start before userId ≠ none →
      state userId ≠ none)
    (seen : Seen start history (before ++ turn :: after) id userId) :
    Seen start history (before ++ ⟨[entry], state⟩ :: turn :: after) id
      userId := by
  rcases seen with hnow | ⟨first, removal, last, horder, hsome, hnone, hall⟩
  · refine .inl ?_
    rw [stateAfter_append] at hnow ⊢
    exact hnow
  · obtain ⟨middle, rfl, rfl⟩ | ⟨rfl, rfl, rfl⟩ | ⟨middle, rfl, rfl⟩ :=
      turn_cases horder
    · refine .inr ⟨first, removal,
        middle ++ ⟨[entry], state⟩ :: turn :: after, ?_, hsome, hnone, hall⟩
      rw [List.append_assoc, List.cons_append]
    · refine .inr ⟨first ++ [⟨[entry], state⟩], removal, last, ?_, ?_, hnone,
        fun other precedes => ?_⟩
      · rw [List.append_assoc, List.singleton_append]
      · rw [stateAfter_append]
        exact keeps userId hsome
      · rw [ids_append]
        exact List.mem_append_left _ (hall other precedes)
    · refine .inr ⟨before ++ ⟨[entry], state⟩ :: turn :: middle, removal, last,
        ?_, ?_, hnone, fun other precedes => ?_⟩
      · rw [List.append_assoc, List.cons_append, List.cons_append]
      · rw [stateAfter_append] at hsome ⊢
        exact hsome
      · have hmem := hall other precedes
        simp only [ids_append, ids_cons, List.mem_append] at hmem ⊢
        tauto

theorem Seen.into
    (seen : Seen start history (before ++ turn :: after) id userId) :
    Seen start history (before ++ turn.join entry :: after) id userId := by
  rcases seen with hnow | ⟨first, removal, last, horder, hsome, hnone, hall⟩
  · refine .inl ?_
    rw [stateAfter_join]
    exact hnow
  · obtain ⟨middle, rfl, rfl⟩ | ⟨rfl, rfl, rfl⟩ | ⟨middle, rfl, rfl⟩ :=
      turn_cases horder
    · refine .inr ⟨first, removal, middle ++ turn.join entry :: after, ?_,
        hsome, hnone, hall⟩
      rw [List.append_assoc, List.cons_append]
    · exact .inr ⟨first, _, last, rfl, hsome, hnone, hall⟩
    · refine .inr ⟨before ++ turn.join entry :: middle, removal, last, ?_, ?_,
        hnone, fun other precedes => ?_⟩
      · rw [List.append_assoc, List.cons_append]
      · rw [stateAfter_join]
        exact hsome
      · have hmem := hall other precedes
        simp only [ids_append, ids_cons, Turn.join, List.map_cons,
          List.mem_append, List.mem_cons] at hmem ⊢
        tauto

end Seen

/-! How far a request has come. -/

section Stage

variable {start : Contents} {history : History Request Reply}
variable {order order' : List (Turn Request Reply Contents)}
variable {id : Nat} {request : Request}

inductive Stage (engine : Engine) (faults : String → Prop) (start : Contents)
    (history : History Request Reply)
    (order : List (Turn Request Reply Contents)) (id : Nat)
    (request : Request) : Option Handler → Prop
  | gone : Stage engine faults start history order id request none
  | settled {reply : Reply} :
      (∃ entry ∈ entries order, entry.id = id ∧ entry.reply = reply) →
      Stage engine faults start history order id request (some (.done reply))
  | idle {reply : Reply} : id ∉ ids order →
      (∀ vault, Does engine faults request reply vault vault) →
      Stage engine faults start history order id request (some (.done reply))
  | reading : id ∉ ids order → request.userId ≠ "" → request.invalid = none →
      Stage engine faults start history order id request
        (some (.call (wordsOf request.userId) request.onWords))
  | saving {userId : String} {words : JsValue} : id ∉ ids order →
      request = .save userId words → request.invalid = none →
      Stage engine faults start history order id request
        (some (.call (.insert userId words) savedWords))
  | updating {userId : String} {words : JsValue} : id ∉ ids order →
      request = .update userId words → request.invalid = none →
      Seen start history order id userId →
      Stage engine faults start history order id request
        (some (.call (.update words userId) updatedWords))
  | deleting {userId : String} : id ∉ ids order →
      request = .delete userId → Seen start history order id userId →
      Stage engine faults start history order id request
        (some (.call (.deleteWhere userId) deletedWords))

theorem Stage.marked {thread : Option Handler} {mark : Mark Request Reply}
    (hmark : ∀ other, mark ≠ .invoked id other)
    (stage : Stage engine faults start history order id request thread) :
    Stage engine faults start (history ++ [mark]) order id request thread := by
  cases stage with
  | gone => exact .gone
  | settled found => exact .settled found
  | idle pending does => exact .idle pending does
  | reading pending named valid => exact .reading pending named valid
  | saving pending heq valid => exact .saving pending heq valid
  | updating pending heq valid seen =>
      exact .updating pending heq valid (seen.marked hmark)
  | deleting pending heq seen => exact .deleting pending heq (seen.marked hmark)

/-- Another request that takes its place in the order changes no stage, as long
as the words that have been found count as found. -/
theorem Stage.grow {thread : Option Handler} {entry : Entry Request Reply}
    (takes : Takes entry order order') (hne : id ≠ entry.id)
    (seen : ∀ userId, Seen start history order id userId →
      Seen start history order' id userId)
    (stage : Stage engine faults start history order id request thread) :
    Stage engine faults start history order' id request thread := by
  have still : id ∉ ids order → id ∉ ids order' := by
    intro pending hmem
    rcases takes.mem_ids.mp hmem with heq | hold
    · exact hne heq
    · exact pending hold
  cases stage with
  | gone => exact .gone
  | settled found =>
      obtain ⟨other, hother, hreply⟩ := found
      exact .settled ⟨other, takes.mem_entries.mpr (.inr hother), hreply⟩
  | idle pending does => exact .idle (still pending) does
  | reading pending named valid => exact .reading (still pending) named valid
  | saving pending heq valid => exact .saving (still pending) heq valid
  | updating pending heq valid found =>
      exact .updating (still pending) heq valid (seen _ found)
  | deleting pending heq found =>
      exact .deleting (still pending) heq (seen _ found)

/-- What a step of a request leads to. -/
structure Moved (engine : Engine) (faults : String → Prop) (start : Contents)
    (history : History Request Reply)
    (order order' : List (Turn Request Reply Contents)) (id : Nat)
    (request : Request) (contents : Contents) (next : Handler) : Prop where
  linearizes : Linearizes (Effects engine faults) start history order'
  agrees : contents = stateAfter start order'
  stage : Stage engine faults start history order' id request (some next)
  stable : ∀ id' request' thread, id' ≠ id →
    Stage engine faults start history order id' request' thread →
    Stage engine faults start history order' id' request' thread

variable {contents : Contents} {next : Handler} {reply : Reply}

theorem moved_same
    (linearizes : Linearizes (Effects engine faults) start history order)
    (agrees : contents = stateAfter start order)
    (stage : Stage engine faults start history order id request (some next)) :
    Moved engine faults start history order order id request contents next :=
  ⟨linearizes, agrees, stage, fun _ _ _ _ stage => stage⟩

theorem moved_idle {message : String} (fault : faults message)
    (linearizes : Linearizes (Effects engine faults) start history order)
    (agrees : contents = stateAfter start order) (pending : id ∉ ids order) :
    Moved engine faults start history order order id request contents
      (.done (.failed message)) :=
  moved_same linearizes agrees (.idle pending fun _ => .failed fault)

theorem settled_now {vault : Contents}
    (linearizes : Linearizes (Effects engine faults) start history order)
    (agrees : vault = stateAfter start order)
    (invoked : .invoked id request ∈ history) (pending : id ∉ ids order)
    (effects : Effects engine faults [(request, reply)] vault contents) :
    ∃ order', Linearizes (Effects engine faults) start history order' ∧
      stateAfter start order' = contents ∧
      (∃ entry ∈ entries order', entry.id = id ∧ entry.reply = reply) ∧
      ∀ id' request' thread, id' ≠ id →
        Stage engine faults start history order id' request' thread →
        Stage engine faults start history order' id' request' thread := by
  refine ⟨order ++ [⟨[⟨id, request, reply⟩], contents⟩], ?_, ?_, ?_, ?_⟩
  · exact linearizes.take_now (agrees ▸ effects) pending invoked
  · rw [stateAfter_append]
    rfl
  · refine ⟨⟨id, request, reply⟩, ?_, rfl, rfl⟩
    rw [entries_append]
    exact List.mem_append_right _ (List.mem_singleton_self _)
  · intro id' request' thread hne stage
    have takes : Takes ⟨id, request, reply⟩ (order ++ [])
        (order ++ [⟨[⟨id, request, reply⟩], contents⟩]) :=
      .between order [] contents
    rw [List.append_nil] at takes
    exact stage.grow takes hne fun _ seen => seen.now linearizes

theorem moved_now {vault : Contents}
    (linearizes : Linearizes (Effects engine faults) start history order)
    (agrees : vault = stateAfter start order)
    (invoked : .invoked id request ∈ history) (pending : id ∉ ids order)
    (effects : Effects engine faults [(request, reply)] vault contents) :
    ∃ order', Moved engine faults start history order order' id request contents
      (.done reply) := by
  obtain ⟨order', hlinearizes, hstate, found, stable⟩ :=
    settled_now linearizes agrees invoked pending effects
  exact ⟨order', hlinearizes, hstate.symm, .settled found, stable⟩

theorem moved_before {userId : String} {words : JsValue}
    (linearizes : Linearizes (Effects engine faults) start history order)
    (agrees : contents = stateAfter start order)
    (invoked : .invoked id (.update userId words) ∈ history)
    (pending : id ∉ ids order)
    (valid : (Request.update userId words).invalid = none)
    (seen : Seen start history order id userId)
    (hnone : contents userId = none) :
    ∃ order', Moved engine faults start history order order' id
      (.update userId words) contents (.done .updated) := by
  rw [agrees] at hnone
  obtain ⟨before, turn, after, rfl, hsome, hremoved, hall⟩ :=
    seen.resolve_left (not_not.mpr hnone)
  obtain ⟨hbefore, hturn, hafter⟩ := legal_append.mp linearizes.legal
  obtain ⟨hdeletes, hstate⟩ := hturn.removal hsome hremoved
  obtain ⟨written, hwritten⟩ : ∃ written, written = Function.update
      (stateAfter start before) userId (some (columnText engine.driver words)) :=
    ⟨_, rfl⟩
  have hdoes : Does engine faults (.update userId words) .updated
      (stateAfter start before) written :=
    hwritten ▸ .updated valid hsome (.inl rfl)
  have hdeleted : Effects engine faults turn.effects written turn.after := by
    have hidem : turn.after = Function.update written userId none := by
      rw [hstate, hwritten, Function.update_idem]
    rw [hidem]
    exact .deleted hturn.ne_nil hdeletes (hdoes.keeps hsome)
  refine ⟨before ++ ⟨[⟨id, .update userId words, .updated⟩], written⟩ ::
    turn :: after, ?_, ?_, ?_, ?_⟩
  · exact linearizes.take_between
      (legal_append.mpr ⟨hbefore, .one hdoes, hdeleted, hafter⟩) pending
      invoked hall
  · rw [agrees, stateAfter_append, stateAfter_append]
    rfl
  · refine .settled ⟨⟨id, .update userId words, .updated⟩, ?_, rfl, rfl⟩
    simp
  · intro id' request' thread hother stage
    exact stage.grow (.between before (turn :: after) _) hother fun _ seen =>
      seen.between fun _ hkept => hdoes.keeps hkept

theorem moved_with {userId : String}
    (linearizes : Linearizes (Effects engine faults) start history order)
    (agrees : contents = stateAfter start order)
    (invoked : .invoked id (.delete userId) ∈ history)
    (pending : id ∉ ids order) (seen : Seen start history order id userId)
    (hnone : contents userId = none) :
    ∃ order', Moved engine faults start history order order' id
      (.delete userId) contents (.done .deleted) := by
  rw [agrees] at hnone
  obtain ⟨before, turn, after, rfl, hsome, hremoved, hall⟩ :=
    seen.resolve_left (not_not.mpr hnone)
  obtain ⟨_, hturn, _⟩ := legal_append.mp linearizes.legal
  obtain ⟨hdeletes, hstate⟩ := hturn.removal hsome hremoved
  have hjoined : Effects engine faults
      ((.delete userId, .deleted) :: turn.effects) (stateAfter start before)
      turn.after := by
    rw [hstate]
    refine .deleted (List.cons_ne_nil _ _) ?_ hsome
    exact List.forall_mem_cons.mpr ⟨⟨rfl, .inl rfl⟩, hdeletes⟩
  refine ⟨before ++ turn.join ⟨id, .delete userId, .deleted⟩ :: after,
    linearizes.take_into hjoined pending invoked hall, ?_, ?_, ?_⟩
  · rw [agrees, stateAfter_join]
  · refine .settled ⟨⟨id, .delete userId, .deleted⟩, ?_, rfl, rfl⟩
    simp [Turn.join]
  · intro id' request' thread hother stage
    exact stage.grow (.into before after turn) hother fun _ seen => seen.into

/-! The statements of a request, one by one. -/

variable {table : RecoveryWords} {fate : Fate}

/-- The messages with which the database rejects statements. -/
def Fate.Within (faults : String → Prop) : Fate → Prop
  | .done => True
  | .refused message => faults message
  | .lost message => faults message

theorem moved_found {rows : List Row}
    (hrows : rows.map Row.words = (table.stored request.userId).toList)
    (linearizes : Linearizes (Effects engine faults) start history order)
    (agrees : table.stored = stateAfter start order)
    (invoked : .invoked id request ∈ history) (pending : id ∉ ids order)
    (valid : request.invalid = none) :
    ∃ order', Moved engine faults start history order order' id request
      table.stored (request.onWords (.ok rows)) := by
  cases hstored : table.stored request.userId with
  | none =>
      rw [hstored] at hrows
      obtain rfl := List.map_eq_nil_iff.mp hrows
      cases request with
      | save userId words =>
          exact ⟨order, moved_same linearizes agrees
            (.saving pending rfl valid)⟩
      | get userId =>
          exact moved_now linearizes agrees invoked pending (.one (.noWords hstored))
      | update userId words =>
          exact moved_now linearizes agrees invoked pending
            (.one (.nothingToUpdate hstored))
      | delete userId =>
          exact moved_now linearizes agrees invoked pending
            (.one (.nothingToDelete hstored))
  | some column =>
      rw [hstored] at hrows
      obtain ⟨row, rfl, rfl⟩ := List.map_eq_singleton_iff.mp hrows
      have hsome : table.stored request.userId ≠ none := by
        rw [hstored]
        exact Option.some_ne_none _
      cases request with
      | save userId words =>
          exact moved_now linearizes agrees invoked pending
            (.one (.alreadySaved hsome (.inl rfl)))
      | get userId =>
          exact moved_now linearizes agrees invoked pending (.one (.shown hstored))
      | update userId words =>
          exact ⟨order, moved_same linearizes agrees
            (.updating pending rfl valid (.inl (agrees ▸ hsome)))⟩
      | delete userId =>
          exact ⟨order, moved_same linearizes agrees
            (.deleting pending rfl (.inl (agrees ▸ hsome)))⟩

theorem call_reading
    (linearizes : Linearizes (Effects engine faults) start history order)
    (agrees : table.stored = stateAfter start order)
    (invoked : .invoked id request ∈ history) (within : fate.Within faults)
    (pending : id ∉ ids order) (named : request.userId ≠ "")
    (valid : request.invalid = none) :
    ∃ order', Moved engine faults start history order order' id request
      (execute engine fate (wordsOf request.userId) table).2.stored
      (request.onWords
        (execute engine fate (wordsOf request.userId) table).1) := by
  cases fate with
  | done =>
      rw [execute, statement_wordsOf named]
      exact moved_found (table.filter_eq_toList request.userId) linearizes
        agrees invoked pending valid
  | refused message =>
      have hnext : request.onWords (execute engine (.refused message)
          (wordsOf request.userId) table).1 = .done (.failed message) :=
        request.onWords_error message
      rw [hnext]
      exact ⟨order, moved_idle within linearizes agrees pending⟩
  | lost message =>
      have hnext : request.onWords (execute engine (.lost message)
          (wordsOf request.userId) table).1 = .done (.failed message) :=
        request.onWords_error message
      rw [hnext, execute, statement_wordsOf named]
      exact ⟨order, moved_idle within linearizes agrees pending⟩

theorem call_saving {userId : String} {words : JsValue}
    (linearizes : Linearizes (Effects engine faults) start history order)
    (agrees : table.stored = stateAfter start order)
    (invoked : .invoked id (.save userId words) ∈ history)
    (within : fate.Within faults) (pending : id ∉ ids order)
    (valid : (Request.save userId words).invalid = none) :
    ∃ order', Moved engine faults start history order order' id
      (.save userId words)
      (execute engine fate (.insert userId words) table).2.stored
      (savedWords (execute engine fate (.insert userId words) table).1) := by
  by_cases free : userId ∉ table.rows.map Row.userId
  · have hnone := RecoveryWords.stored_eq_none_iff.mpr free
    have hstatement : statement engine (.insert userId words) table =
        (.ok [⟨userId, columnText engine.driver words⟩],
          table.insert ⟨userId, columnText engine.driver words⟩ free) :=
      dif_pos free
    cases fate with
    | done =>
        rw [execute, hstatement, RecoveryWords.stored_insert free]
        exact moved_now linearizes agrees invoked pending
          (.one (.saved valid hnone (.inl rfl)))
    | refused message =>
        exact ⟨order, moved_idle within linearizes agrees pending⟩
    | lost message =>
        rw [execute, hstatement, RecoveryWords.stored_insert free]
        exact moved_now linearizes agrees invoked pending
          (.one (.saved valid hnone (.inr ⟨message, within, rfl⟩)))
  · have hsome := mt RecoveryWords.stored_eq_none_iff.mp free
    have hstatement : statement engine (.insert userId words) table =
        (.error engine.keyTaken, table) := dif_neg free
    cases fate with
    | done =>
        rw [execute, hstatement]
        exact moved_now linearizes agrees invoked pending
          (.one (.alreadySaved hsome (.inr rfl)))
    | refused message =>
        exact ⟨order, moved_idle within linearizes agrees pending⟩
    | lost message =>
        rw [execute, hstatement]
        exact ⟨order, moved_idle within linearizes agrees pending⟩

theorem call_updating {userId : String} {words : JsValue}
    (linearizes : Linearizes (Effects engine faults) start history order)
    (agrees : table.stored = stateAfter start order)
    (invoked : .invoked id (.update userId words) ∈ history)
    (within : fate.Within faults) (pending : id ∉ ids order)
    (valid : (Request.update userId words).invalid = none)
    (seen : Seen start history order id userId) :
    ∃ order', Moved engine faults start history order order' id
      (.update userId words)
      (execute engine fate (.update words userId) table).2.stored
      (updatedWords (execute engine fate (.update words userId) table).1) := by
  have hstored := table.stored_update userId (columnText engine.driver words)
  by_cases hnone : table.stored userId = none
  · rw [if_pos hnone] at hstored
    cases fate with
    | done =>
        have hmoved := moved_before linearizes agrees invoked pending valid seen
          hnone
        rw [← hstored] at hmoved
        exact hmoved
    | refused message =>
        exact ⟨order, moved_idle within linearizes agrees pending⟩
    | lost message =>
        exact ⟨order, moved_idle within linearizes (hstored.trans agrees)
          pending⟩
  · rw [if_neg hnone] at hstored
    cases fate with
    | done =>
        refine moved_now linearizes agrees invoked pending ?_
        rw [execute, statement, hstored]
        exact .one (.updated valid hnone (.inl rfl))
    | refused message =>
        exact ⟨order, moved_idle within linearizes agrees pending⟩
    | lost message =>
        refine moved_now linearizes agrees invoked pending ?_
        rw [execute, statement, hstored]
        exact .one (.updated valid hnone (.inr ⟨message, within, rfl⟩))

theorem call_deleting {userId : String}
    (linearizes : Linearizes (Effects engine faults) start history order)
    (agrees : table.stored = stateAfter start order)
    (invoked : .invoked id (.delete userId) ∈ history)
    (within : fate.Within faults) (pending : id ∉ ids order)
    (seen : Seen start history order id userId) :
    ∃ order', Moved engine faults start history order order' id
      (.delete userId)
      (execute engine fate (.deleteWhere userId) table).2.stored
      (deletedWords (execute engine fate (.deleteWhere userId) table).1) := by
  have hstored := table.stored_deleteWhere userId
  by_cases hnone : table.stored userId = none
  · have hsame : (table.deleteWhere userId).stored = table.stored := by
      rw [hstored, ← hnone, Function.update_eq_self]
    cases fate with
    | done =>
        have hmoved := moved_with linearizes agrees invoked pending seen hnone
        rw [← hsame] at hmoved
        exact hmoved
    | refused message =>
        exact ⟨order, moved_idle within linearizes agrees pending⟩
    | lost message =>
        exact ⟨order, moved_idle within linearizes (hsame.trans agrees) pending⟩
  · have hdeleted : ∀ reply : Reply, (reply = .deleted ∨
        ∃ message, faults message ∧ reply = .failed message) →
        Effects engine faults [(.delete userId, reply)] table.stored
          (table.deleteWhere userId).stored := by
      intro reply hreply
      rw [hstored]
      exact .deleted (List.cons_ne_nil _ _)
        (List.forall_mem_singleton.mpr ⟨rfl, hreply⟩) hnone
    cases fate with
    | done =>
        exact moved_now linearizes agrees invoked pending
          (hdeleted .deleted (.inl rfl))
    | refused message =>
        exact ⟨order, moved_idle within linearizes agrees pending⟩
    | lost message =>
        exact moved_now linearizes agrees invoked pending
          (hdeleted (.failed message) (.inr ⟨message, within, rfl⟩))

end Stage

/-- The vault keeps to its stages. -/
def staging (engine : Engine) (faults : String → Prop) (start : Contents) :
    Staging (Effects engine faults) start Request.handler (execute engine)
      (fun request => request.userId ≠ "") (Fate.Within faults) where
  view := RecoveryWords.stored
  Stage := Stage engine faults start
  gone _ _ _ _ := .gone
  fresh := by
    intro history order id request named pending
    rw [request.handler_eq]
    cases hinvalid : request.invalid with
    | none => exact .reading pending named hinvalid
    | some reply => exact .idle pending fun _ => .invalid hinvalid
  marked := Stage.marked
  call := by
    intro table history order id request command next fate linearizes agrees
      invoked within stage
    have moved : ∃ order', Moved engine faults start history order order' id
        request (execute engine fate command table).2.stored
        (next (execute engine fate command table).1) := by
      cases stage with
      | reading pending named valid =>
          exact call_reading linearizes agrees invoked within pending named
            valid
      | saving pending heq valid =>
          subst heq
          exact call_saving linearizes agrees invoked within pending valid
      | updating pending heq valid seen =>
          subst heq
          exact call_updating linearizes agrees invoked within pending valid
            seen
      | deleting pending heq seen =>
          subst heq
          exact call_deleting linearizes agrees invoked within pending seen
    obtain ⟨order', moved⟩ := moved
    exact ⟨order', moved.linearizes, moved.agrees, moved.stage, moved.stable⟩
  reply := by
    intro history order id request reply linearizes invoked stage
    cases stage with
    | settled found =>
        exact ⟨order, linearizes, rfl, found, fun _ _ _ _ stage => stage⟩
    | idle pending does =>
        exact settled_now linearizes rfl invoked pending
          (.one (does (stateAfter start order)))

/-! Runs of the vault. -/

section Runs

variable {table : RecoveryWords}
variable {sessions : Clients Request Reply DbCall DbCall.Result RecoveryWords}

/-- The users are named, and the database rejects statements with `faults`. -/
abbrev Runs (engine : Engine) (faults : String → Prop) (table : RecoveryWords)
    (sessions : Clients Request Reply DbCall DbCall.Result RecoveryWords) :
    Prop :=
  Reachable (Clients.step Request.handler (execute engine))
    (Staging.Allowed (fun request => request.userId ≠ "") (Fate.Within faults))
    (Clients.empty table) sessions

/-- However requests to the vault interleave, and whichever statements the
database rejects, they look as if each had taken effect at one moment between
its arrival and its reply. -/
theorem recoveryWords_linearizable (runs : Runs engine faults table sessions) :
    Linearization (Effects engine faults) table.stored sessions.history :=
  (staging engine faults table.stored).linearizable rfl runs

end Runs

/-! Runs that are given by their events, with a database that rejects
nothing. -/

def sqlite : Engine where
  driver := ⟨.sqlite, fun _ => ""⟩
  keyTaken := "SQLITE_CONSTRAINT: UNIQUE constraint failed: " ++
    "recoveryWords.userId"

def usual (_ : Clients Request Reply DbCall DbCall.Result RecoveryWords) :
    Event Request Fate → Bool
  | .invoke request => request.userId ≠ ""
  | .act _ .done => true
  | .act _ _ => false

theorem runs_of_events (events : List (Event Request Fate))
    {sessions : Clients Request Reply DbCall DbCall.Result RecoveryWords}
    (h : runEvents (Clients.step Request.handler (execute sqlite)) usual events
      (Clients.empty .empty) = some sessions) :
    Runs sqlite (fun _ => False) .empty sessions := by
  refine reachable_of_runEvents ?_ h
  intro before event hevent
  cases event with
  | invoke request => exact of_decide_eq_true (p := request.userId ≠ "") hevent
  | act id fate =>
      cases fate with
      | done => trivial
      | refused message => cases hevent
      | lost message => cases hevent

/-- The words are deleted while an update of them is on its way. -/
def overtaken : Clients Request Reply DbCall DbCall.Result RecoveryWords where
  world := .empty
  threads := [(.save "@dwho:docker.internal" (.str "ten words"), none),
    (.update "@dwho:docker.internal" (.str "other words"), none),
    (.delete "@dwho:docker.internal", none),
    (.get "@dwho:docker.internal", none)]
  history := [
    .invoked 0 (.save "@dwho:docker.internal" (.str "ten words")),
    .answered 0 .saved,
    .invoked 1 (.update "@dwho:docker.internal" (.str "other words")),
    .invoked 2 (.delete "@dwho:docker.internal"),
    .answered 2 .deleted,
    .invoked 3 (.get "@dwho:docker.internal"),
    .answered 3 .noWords,
    .answered 1 .updated]

theorem runs_overtaken : Runs sqlite (fun _ => False) .empty overtaken :=
  runs_of_events [
    .invoke (.save "@dwho:docker.internal" (.str "ten words")),
    .act 0 .done, .act 0 .done, .act 0 .done,
    .invoke (.update "@dwho:docker.internal" (.str "other words")),
    .act 1 .done,
    .invoke (.delete "@dwho:docker.internal"),
    .act 2 .done, .act 2 .done, .act 2 .done,
    .invoke (.get "@dwho:docker.internal"),
    .act 3 .done, .act 3 .done,
    .act 1 .done, .act 1 .done] rfl

theorem recoveryWords_linearizable_overtaken :
    Linearization (Effects sqlite fun _ => False) RecoveryWords.empty.stored
      overtaken.history :=
  recoveryWords_linearizable runs_overtaken

end TwakeKickstart.TomServer.Vault
