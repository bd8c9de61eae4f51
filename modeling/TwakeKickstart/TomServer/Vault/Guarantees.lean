import TwakeKickstart.TomServer.Vault.Linearization

namespace TwakeKickstart.TomServer.Vault

open Library
open Library.Linearizable

/-! What the users can tell from the replies. -/

section Replies

variable {engine : Engine} {faults : String → Prop}
variable {request : Request} {reply : Reply} {vault after : Contents}

theorem status_of_invalid (h : request.invalid = some reply) :
    reply.status = 400 ∨ reply.status = 500 := by
  cases request with
  | save userId words | update userId words =>
      rw [Request.invalid] at h
      split at h
      · cases h
        exact .inr rfl
      · cases h
        exact .inl rfl
      · cases h
  | get userId | delete userId => cases h

theorem Does.present (does : Does engine faults request reply vault after)
    (h : reply.status = 200 ∨ reply.status = 201) :
    after request.userId ≠ none := by
  cases does with
  | invalid hinvalid =>
      rcases status_of_invalid hinvalid with heq | heq <;> simp [heq] at h
  | failed _ => simp at h
  | saved _ _ _ => simp [Request.userId]
  | alreadySaved hsome _ => exact hsome
  | shown hsome =>
      rw [Request.userId, hsome]
      exact Option.some_ne_none _
  | noWords _ => simp at h
  | updated _ _ _ => simp [Request.userId]
  | nothingToUpdate _ => simp at h
  | nothingToDelete _ => simp at h

theorem Does.absent (does : Does engine faults request reply vault after)
    (h : reply.status = 404 ∨ reply.status = 201) :
    vault request.userId = none := by
  cases does with
  | invalid hinvalid =>
      rcases status_of_invalid hinvalid with heq | heq <;> simp [heq] at h
  | failed _ => simp at h
  | saved _ hnone _ => exact hnone
  | alreadySaved _ hreply => rcases hreply with rfl | rfl <;> simp at h
  | shown _ => simp at h
  | noWords hnone => exact hnone
  | updated _ _ hreply =>
      rcases hreply with rfl | ⟨message, _, rfl⟩ <;> simp at h
  | nothingToUpdate hnone => exact hnone
  | nothingToDelete hnone => exact hnone

/-- What has been answered in any other way than a deletion took effect on its
own. -/
theorem Effects.single {effects : List (Request × Reply)}
    (does : Effects engine faults effects vault after)
    (h : (request, reply) ∈ effects) (hdeleted : reply.status ≠ 204)
    (hfailed : reply.status ≠ 500) :
    effects = [(request, reply)] ∧
      Does engine faults request reply vault after := by
  cases does with
  | one does =>
      cases List.mem_singleton.mp h
      exact ⟨rfl, does⟩
  | deleted _ hall _ =>
      rcases (hall _ h).2 with heq | ⟨message, _, heq⟩
      · exact absurd (congrArg Reply.status heq) hdeleted
      · exact absurd (congrArg Reply.status heq) hfailed

variable {start : Contents} {history : History Request Reply}
variable {order : List (Turn Request Reply Contents)}

/-- A reply that tells of words and a later one that tells of none have a
deletion between them. -/
theorem exists_deletion
    (linearizes : Linearizes (Effects engine faults) start history order)
    {first second : Entry Request Reply} (hfirst : first ∈ entries order)
    (hsecond : second ∈ entries order)
    (huser : second.op.userId = first.op.userId)
    (hpresent : first.reply.status = 200 ∨ first.reply.status = 201)
    (habsent : second.reply.status = 404 ∨ second.reply.status = 201)
    (before : Before order first.id second.id) :
    ∃ deletion ∈ entries order, deletion.op = .delete first.op.userId ∧
      Before order first.id deletion.id ∧
      Before order deletion.id second.id := by
  obtain ⟨front, turn, middle, turn', back, rfl, hmem, hmem'⟩ :=
    before.exists_turns linearizes.nodup hfirst hsecond
  obtain ⟨hleft, hturn', _⟩ := legal_append.mp linearizes.legal
  obtain ⟨_, hturn, hmiddle⟩ := legal_append.mp hleft
  have hthere : turn.after first.op.userId ≠ none := by
    refine (hturn.single (List.mem_map_of_mem hmem) ?_ ?_).2.present hpresent
    · omega
    · omega
  have hgone : stateAfter turn.after middle first.op.userId = none := by
    rw [← huser]
    have hnone := (hturn'.single (List.mem_map_of_mem hmem') ?_ ?_).2.absent
      habsent
    · rw [stateAfter_append] at hnone
      exact hnone
    · omega
    · omega
  obtain ⟨left, removal, right, rfl, hsome, hnone⟩ := exists_turn_undoing
    (fun vault : Contents => vault first.op.userId ≠ none) hthere (not_not.mpr hgone)
  obtain ⟨_, hremoval, _⟩ := legal_append.mp hmiddle
  have hall := (hremoval.removal hsome (not_not.mp hnone)).1
  obtain ⟨deletion, hdeletion⟩ := List.exists_mem_of_ne_nil removal.entries
    fun hnil => hremoval.ne_nil (congrArg (List.map Entry.effect) hnil)
  have hids : deletion.id ∈ removal.entries.map Entry.id :=
    List.mem_map_of_mem hdeletion
  refine ⟨deletion, ?_, (hall _ (List.mem_map_of_mem hdeletion)).1,
    ⟨front ++ [turn], left ++ removal :: right ++ turn' :: back, ?_, ?_, ?_⟩,
    ⟨front ++ turn :: left ++ [removal], right ++ turn' :: back, ?_, ?_, ?_⟩⟩
  · simp [hdeletion]
  · simp
  · simp [List.mem_map_of_mem hmem]
  · simp [hids]
  · simp
  · simp [hids]
  · simp [List.mem_map_of_mem hmem']

end Replies

section Guarantees

variable {engine : Engine} {faults : String → Prop} {table : RecoveryWords}
variable {sessions : Clients Request Reply DbCall DbCall.Result RecoveryWords}

/-- When a user has been told of words and learns later that there are none, or
saves some anew, a deletion was asked for before the end of the later request
and not over before the earlier one. -/
theorem deletion_between (runs : Runs engine faults table sessions)
    {first second : Nat} {request request' : Request} {reply reply' : Reply}
    (hfirst : .invoked first request ∈ sessions.history)
    (hreply : .answered first reply ∈ sessions.history)
    (hsecond : .invoked second request' ∈ sessions.history)
    (hreply' : .answered second reply' ∈ sessions.history)
    (huser : request'.userId = request.userId)
    (hpresent : reply.status = 200 ∨ reply.status = 201)
    (habsent : reply'.status = 404 ∨ reply'.status = 201)
    (precedes : Precedes sessions.history first second) :
    ∃ deletion, .invoked deletion (.delete request.userId) ∈ sessions.history ∧
      ¬ Precedes sessions.history deletion first ∧
      ¬ Precedes sessions.history second deletion := by
  obtain ⟨order, linearizes⟩ :=
    (staging engine faults table.stored).linearizable rfl runs
  obtain ⟨earlier, hearlier, rfl, rfl⟩ := linearizes.answered first reply hreply
  obtain ⟨later, hlater, rfl, rfl⟩ := linearizes.answered second reply' hreply'
  obtain rfl := Staging.invoked_eq runs hfirst
    (linearizes.invoked earlier hearlier)
  obtain rfl := Staging.invoked_eq runs hsecond (linearizes.invoked later hlater)
  have hbefore := linearizes.inOrder _ _ precedes (mem_ids_of_mem_entries hlater)
  obtain ⟨deletion, hdeletion, hop, hafter, hbefore⟩ := exists_deletion
    linearizes hearlier hlater huser hpresent habsent hbefore
  exact ⟨deletion.id, hop ▸ linearizes.invoked deletion hdeletion,
    linearizes.not_precedes hafter, linearizes.not_precedes hbefore⟩

theorem deletion_between_overtaken :
    ∃ deletion, .invoked deletion (.delete "@dwho:docker.internal") ∈
        overtaken.history ∧
      ¬ Precedes overtaken.history deletion 0 ∧
      ¬ Precedes overtaken.history 3 deletion := by
  have hsave : .invoked 0 (.save "@dwho:docker.internal" (.str "ten words")) ∈
      overtaken.history := .head _
  have hsaved : .answered 0 .saved ∈ overtaken.history := .tail _ (.head _)
  have hget : .invoked 3 (.get "@dwho:docker.internal") ∈
      overtaken.history := by
    simp [overtaken]
  have hgone : .answered 3 .noWords ∈ overtaken.history := by
    simp [overtaken]
  exact deletion_between runs_overtaken hsave hsaved hget hgone rfl (.inr rfl)
    (.inl rfl) ⟨overtaken.history.take 2, overtaken.history.drop 2, .saved,
      .get "@dwho:docker.internal", rfl, .tail _ (.head _),
      by simp [overtaken]⟩

/-- Unless somebody deletes their words, at most one of the requests of a user
to save words succeeds. -/
theorem saved_once (runs : Runs engine faults table sessions) {userId : String}
    (kept : ∀ deletion, .invoked deletion (.delete userId) ∉ sessions.history)
    {first second : Nat} {words words' : JsValue}
    (hfirst : .invoked first (.save userId words) ∈ sessions.history)
    (hreply : .answered first .saved ∈ sessions.history)
    (hsecond : .invoked second (.save userId words') ∈ sessions.history)
    (hreply' : .answered second .saved ∈ sessions.history) :
    first = second := by
  obtain ⟨order, linearizes⟩ :=
    (staging engine faults table.stored).linearizable rfl runs
  obtain ⟨entry, hentry, rfl, hsaved⟩ := linearizes.answered first _ hreply
  obtain ⟨other, hother, rfl, hsaved'⟩ := linearizes.answered second _ hreply'
  have hop := Staging.invoked_eq runs hfirst (linearizes.invoked entry hentry)
  have hop' := Staging.invoked_eq runs hsecond (linearizes.invoked other hother)
  have never : ∀ {entry other : Entry Request Reply}, entry ∈ entries order →
      other ∈ entries order → entry.op.userId = userId →
      other.op.userId = userId → entry.reply = .saved → other.reply = .saved →
      ¬ Before order entry.id other.id := by
    intro entry other hentry hother huser huser' hsaved hsaved' before
    obtain ⟨deletion, hdeletion, hop, -⟩ := exists_deletion linearizes hentry
      hother (huser'.trans huser.symm) (.inr (congrArg Reply.status hsaved))
      (.inr (congrArg Reply.status hsaved')) before
    apply kept deletion.id
    rw [← huser, ← hop]
    exact linearizes.invoked deletion hdeletion
  obtain ⟨before, turn, after, rfl, hmem, hmem'⟩ | hbefore | hbefore :=
    together_or_before hentry hother
  · obtain ⟨_, hturn, _⟩ := legal_append.mp linearizes.legal
    have hone := (hturn.single (List.mem_map_of_mem hmem) (by simp [hsaved])
      (by simp [hsaved])).1
    obtain ⟨only, honly, _⟩ := List.map_eq_singleton_iff.mp hone
    rw [honly] at hmem hmem'
    rw [List.mem_singleton.mp hmem, List.mem_singleton.mp hmem']
  · exact absurd hbefore (never hentry hother (hop ▸ rfl) (hop' ▸ rfl) hsaved
      hsaved')
  · exact absurd hbefore (never hother hentry (hop' ▸ rfl) (hop ▸ rfl) hsaved'
      hsaved)

/-- Two requests to save words find none, and the second comes too late. -/
def racing : Clients Request Reply DbCall DbCall.Result RecoveryWords where
  world := RecoveryWords.empty.insert
    ⟨"@dwho:docker.internal", some "ten words"⟩ List.not_mem_nil
  threads := [(.save "@dwho:docker.internal" (.str "ten words"), none),
    (.save "@dwho:docker.internal" (.str "other words"), none)]
  history := [
    .invoked 0 (.save "@dwho:docker.internal" (.str "ten words")),
    .invoked 1 (.save "@dwho:docker.internal" (.str "other words")),
    .answered 0 .saved,
    .answered 1 (.failed sqlite.keyTaken)]

theorem runs_racing : Runs sqlite (fun _ => False) .empty racing :=
  runs_of_events [
    .invoke (.save "@dwho:docker.internal" (.str "ten words")),
    .act 0 .done,
    .invoke (.save "@dwho:docker.internal" (.str "other words")),
    .act 1 .done, .act 0 .done, .act 1 .done, .act 0 .done, .act 1 .done] rfl

theorem saved_once_racing : .answered 1 .saved ∉ racing.history := by
  intro hsaved
  have kept : ∀ deletion,
      .invoked deletion (.delete "@dwho:docker.internal") ∉ racing.history := by
    simp [racing]
  have hsame := saved_once runs_racing kept (.head _)
    (.tail _ (.tail _ (.head _))) (.tail _ (.head _)) hsaved
  exact absurd hsame (by decide)

end Guarantees

end TwakeKickstart.TomServer.Vault
