import Mathlib.Data.List.Nodup
import TwakeKickstart.TomServer.Invitations.LinkGeneration
import TwakeKickstart.TomServer.Invitations.Replies

namespace TwakeKickstart.TomServer.Invitations

open Library

/-! A link that is first among the open rows, and stays so. -/

/-- What ends the validity of the link, or puts a later one beside it: the row
is accepted or removed, or an invitation of its kind is sent. -/
def Activity.Disturbs (payload : InvitationPayload) (id : String) :
    Activity → Prop
  | .generate _ _ _ _ => False
  | .invite other _ delivered => delivered = true ∧ other = payload
  | .accept other _ => other = id
  | .remove other => other = id

/-- The row is the first of the open rows that last longest. -/
structure Leads (payload : InvitationPayload) (row : Invitation)
    (table : List Invitation) : Prop where
  distinct : (table.map Invitation.id).Nodup
  first : least laterFirst (openRows payload table) = some row

/-- No reading of the clock from one time to another has reached the
expiration. -/
def ValidFrom (clock : Nat → Nat) (row : Invitation) (start finish : Nat) :
    Prop :=
  ∀ reading, start ≤ reading → reading < finish →
    clock reading < row.expiration

section Leading

variable {invitationUrl : String → String} {clock : Nat → Nat}
variable {payload : InvitationPayload} {row : Invitation}
variable {table : List Invitation} {links : Links}

theorem openRows_nodup (distinct : (table.map Invitation.id).Nodup)
    (payload : InvitationPayload) : (openRows payload table).Nodup :=
  (List.Nodup.of_map _ distinct).filter _

theorem nodup_append_fresh {new : Invitation}
    (distinct : (table.map Invitation.id).Nodup)
    (fresh : new.id ∉ table.map Invitation.id) :
    ((table ++ [new]).map Invitation.id).Nodup := by
  rw [List.map_append, List.map_singleton, List.nodup_append]
  refine ⟨distinct, List.pairwise_singleton .., ?_⟩
  rintro id hmem _ hsame rfl
  rw [List.mem_singleton.mp hsame] at hmem
  exact fresh hmem

theorem Leads.mem (leads : Leads payload row table) :
    row ∈ openRows payload table :=
  least_mem laterFirst leads.first

theorem leads_of_answer {token : String}
    (named : payload.sender ≠ "")
    (distinct : (links.table.map Invitation.id).Nodup)
    (mem : row ∈
      (generateLink invitationUrl clock payload token links).1.table)
    (answer : (generateLink invitationUrl clock payload token links).2 =
      .ok ⟨invitationUrl row.id, row.id⟩)
    (valid : ValidFrom clock row links.readings
      (generateLink invitationUrl clock payload token links).1.readings) :
    Leads payload row
      (generateLink invitationUrl clock payload token links).1.table := by
  rcases generateLink_cases invitationUrl clock named token links with
    ⟨found, hleast, hcall⟩ | ⟨hnone, readings, hreadings,
      ⟨_, hcall⟩ | ⟨hfree, hcall⟩⟩
  · rw [hcall] at mem answer valid ⊢
    have hid : found.id = row.id := by
      simp only [Except.ok.injEq, GenerateInvitationLinkResponse.mk.injEq]
        at answer
      exact answer.2
    have hfound := List.mem_of_mem_filter
      ((unexpired_sublist _ _).subset (least_mem laterFirst hleast))
    obtain rfl : found = row :=
      List.inj_on_of_nodup_map distinct hfound mem hid
    refine ⟨distinct, ?_⟩
    refine least_of_sublist laterFirst_trans laterFirst_total
      (openRows_nodup distinct payload) (unexpired_sublist _ _) hleast ?_
    intro other hother hdropped
    obtain ⟨reading, hreading, hexpired⟩ :=
      (mem_unexpired_or hother).resolve_left hdropped
    have hvalid := valid (links.readings + reading) (Nat.le_add_right _ _)
      (Nat.add_lt_add_left hreading _)
    exact laterFirst_eq_false.mpr (Nat.lt_of_le_of_lt hexpired hvalid)
  · rw [hcall] at answer
    cases answer
  · rw [hcall] at mem answer valid ⊢
    have hid : token = row.id := by
      simp only [Except.ok.injEq, GenerateInvitationLinkResponse.mk.injEq]
        at answer
      exact answer.2
    obtain rfl : row = links.made clock payload token := by
      rcases List.mem_append.mp mem with hmem | hmem
      · exact absurd (hid ▸ List.mem_map_of_mem hmem) hfree
      · exact List.mem_singleton.mp hmem
    refine ⟨?_, ?_⟩
    · exact nodup_append_fresh distinct hfree
    · rw [openRows_append, Links.made, openRows_created,
        least_eq_some_iff laterFirst_trans laterFirst_total]
      refine ⟨openRows payload links.table, [], rfl, ?_, by simp⟩
      intro other hother
      obtain ⟨reading, hreading, hexpired⟩ :=
        (@mem_unexpired_or (fun reading => clock (links.readings + reading))
          _ _ hother).resolve_left (by simp [hnone])
      have hvalid := valid (links.readings + reading) (Nat.le_add_right _ _)
        (by dsimp only; omega)
      exact laterFirst_eq_false.mpr (Nat.lt_of_le_of_lt hexpired hvalid)

theorem Leads.generateLink (leads : Leads payload row links.table)
    (named : payload.sender ≠ "") {token : String}
    (valid : ValidFrom clock row links.readings
      (generateLink invitationUrl clock payload token links).1.readings) :
    generateLink invitationUrl clock payload token links =
      (⟨links.table, links.readings + (openRows payload links.table).length⟩,
        .ok ⟨invitationUrl row.id, row.id⟩) := by
  have hlooked : links.readings + (openRows payload links.table).length ≤
      (Invitations.generateLink invitationUrl clock payload token
        links).1.readings := by
    rcases generateLink_cases invitationUrl clock named token links with
      ⟨_, _, hcall⟩ | ⟨_, readings, hreadings, ⟨_, hcall⟩ |
        ⟨_, hcall⟩⟩
    · exact Nat.le_of_eq (by rw [hcall])
    · rw [hcall]
      dsimp only
      omega
    · rw [hcall]
      dsimp only
      omega
  have hvalid : row ∈ unexpired (fun reading =>
      clock (links.readings + reading)) (openRows payload links.table) := by
    refine (mem_unexpired_or leads.mem).resolve_right ?_
    rintro ⟨reading, hreading, hexpired⟩
    have hbefore := valid (links.readings + reading) (Nat.le_add_right _ _)
      (by omega)
    exact absurd hbefore (Nat.not_lt_of_le hexpired)
  refine generateLink_some named ?_
  exact least_sublist laterFirst_trans laterFirst_total
    (openRows_nodup leads.distinct payload) leads.first
    (unexpired_sublist _ _) hvalid

theorem Leads.append (leads : Leads payload row table) {new : Invitation}
    (fresh : new.id ∉ table.map Invitation.id)
    (other : openRows payload [new] = []) :
    Leads payload row (table ++ [new]) := by
  refine ⟨nodup_append_fresh leads.distinct fresh, ?_⟩
  rw [openRows_append, other, List.append_nil]
  exact leads.first

theorem Leads.sublist (leads : Leads payload row table)
    {after : List Invitation} (distinct : (after.map Invitation.id).Nodup)
    (sublist : (openRows payload after).Sublist (openRows payload table))
    (mem : row ∈ openRows payload after) : Leads payload row after where
  distinct := distinct
  first := least_sublist laterFirst_trans laterFirst_total
    (openRows_nodup leads.distinct payload) leads.first sublist mem

theorem mem_removeInvitation {id : String} {other : Invitation} :
    other ∈ removeInvitation id table ↔ other ∈ table ∧ other.id ≠ id := by
  simp only [removeInvitation, List.mem_filter, Bool.not_eq_true',
    ← Bool.not_eq_true, Invitation.cell, Cell.same_text, ne_eq]

theorem Leads.remove (leads : Leads payload row table) {id : String}
    (other : id ≠ row.id) : Leads payload row (removeInvitation id table) := by
  have hsublist : (removeInvitation id table).Sublist table :=
    List.filter_sublist
  obtain ⟨hmem, hopen⟩ := List.mem_filter.mp leads.mem
  exact leads.sublist (leads.distinct.sublist (hsublist.map _))
    (hsublist.filter _) (List.mem_filter.mpr
      ⟨mem_removeInvitation.mpr ⟨hmem, other.symm⟩, hopen⟩)

theorem openRows_update (payload : InvitationPayload) (userId id : String)
    (table : List Invitation) :
    openRows payload (updateInvitation userId id table) =
      (openRows payload table).filter fun row => row.id != id := by
  induction table with
  | nil => rfl
  | cons first rest ih =>
      unfold openRows updateInvitation at ih ⊢
      rw [List.map_cons, List.filter_cons, List.filter_cons, ih]
      simp only [Invitation.cell, Cell.same_text]
      by_cases hid : first.id = id
      · rw [if_pos hid, if_neg (by simp [Invitation.isAccessed])]
        split
        · rw [List.filter_cons_of_neg (by simp [hid])]
        · rfl
      · rw [if_neg hid]
        split
        · rw [List.filter_cons_of_pos (by simp [hid])]
        · rfl

theorem Leads.accept (leads : Leads payload row table) {userId id : String}
    (other : id ≠ row.id) :
    Leads payload row (updateInvitation userId id table) := by
  refine leads.sublist ?_ ?_ ?_
  · rw [map_updateInvitation]
    exact leads.distinct
  · rw [openRows_update]
    exact List.filter_sublist
  · rw [openRows_update]
    exact List.mem_filter.mpr ⟨leads.mem, by simpa using other.symm⟩

theorem removeInvitation_append {token : String}
    (fresh : token ∉ table.map Invitation.id) {new : Invitation}
    (named : new.id = token) :
    removeInvitation token (table ++ [new]) = table := by
  rw [removeInvitation, List.filter_append, List.filter_eq_self.mpr,
    List.filter_cons_of_neg, List.filter_nil, List.append_nil]
  · simp [Invitation.cell, named]
  · intro row hrow
    have hother : row.id ≠ token := by
      rintro rfl
      exact fresh (List.mem_map_of_mem hrow)
    simpa [Invitation.cell, ← Bool.not_eq_true] using hother

theorem invite_table (clock : Nat → Nat) (other : InvitationPayload)
    (token : String) (delivered : Bool) (links : Links) :
    (links.invite clock other token delivered).table = links.table ∨
    delivered = true ∧ token ∉ links.table.map Invitation.id ∧
      (links.invite clock other token delivered).table = links.table ++
        [createInvitation (clock links.readings) token other] := by
  unfold Links.invite
  rcases create_cases clock other token links with
    ⟨_, hcreate⟩ | ⟨hfree, hcreate⟩
  · rw [hcreate]
    exact .inl rfl
  · rw [hcreate]
    cases delivered with
    | true => exact .inr ⟨rfl, hfree, rfl⟩
    | false =>
        exact .inl (removeInvitation_append hfree rfl)

theorem Leads.generate (leads : Leads payload row links.table)
    {sender contact medium : Option String} {token : String}
    (valid : ValidFrom clock row links.readings (generateInvitationLink
      invitationUrl clock sender contact medium token links).1.readings) :
    Leads payload row (generateInvitationLink invitationUrl clock sender
      contact medium token links).1.table := by
  cases sender with
  | none => exact leads
  | some sender =>
      unfold generateInvitationLink at valid ⊢
      dsimp only at valid ⊢
      by_cases hnamed : sender = ""
      · rw [if_pos hnamed]
        exact leads
      · rw [if_neg hnamed] at valid ⊢
        by_cases hkind : (⟨sender, contact, medium⟩ : InvitationPayload) =
            payload
        · subst hkind
          rw [leads.generateLink hnamed valid]
          exact leads
        · have hother : (⟨sender, contact, medium⟩ :
              InvitationPayload).sender ≠ "" := hnamed
          rcases generateLink_cases invitationUrl clock hother token links with
            ⟨_, _, hcall⟩ | ⟨_, readings, _, ⟨_, hcall⟩ |
              ⟨hfree, hcall⟩⟩
          · rw [hcall]
            exact leads
          · rw [hcall]
            exact leads
          · rw [hcall]
            exact leads.append hfree (openRows_other hkind _ _)

theorem Leads.step (leads : Leads payload row links.table)
    {activity : Activity}
    (undisturbed : ¬ activity.Disturbs payload row.id)
    (valid : ValidFrom clock row links.readings
      (activity.step invitationUrl clock links).readings) :
    Leads payload row (activity.step invitationUrl clock links).table := by
  cases activity with
  | generate sender contact medium token =>
      exact leads.generate valid
  | invite other token delivered =>
      rcases invite_table clock other token delivered links with
        hsame | ⟨hdelivered, hfree, hadded⟩
      · rw [Activity.step, hsame]
        exact leads
      · rw [Activity.step, hadded]
        refine leads.append hfree (openRows_other ?_ _ _)
        intro hkind
        exact undisturbed ⟨hdelivered, hkind⟩
  | accept id userId => exact leads.accept undisturbed
  | remove id => exact leads.remove undisturbed

theorem readings_le_step (activity : Activity) (links : Links) :
    links.readings ≤
      (activity.step invitationUrl clock links).readings := by
  cases activity with
  | generate sender contact medium token =>
      cases sender with
      | none => exact Nat.le_refl _
      | some sender =>
          simp only [Activity.step, generateInvitationLink]
          split
          · exact Nat.le_refl _
          · rename_i hnamed
            exact readings_le_generateLink hnamed
  | invite other token delivered =>
      simp only [Activity.step, Links.invite]
      rcases create_cases clock other token links with
        ⟨_, hcreate⟩ | ⟨_, hcreate⟩
      · rw [hcreate]
        exact Nat.le_add_right _ _
      · rw [hcreate]
        dsimp only
        split
        · exact Nat.le_add_right _ _
        · exact Nat.le_add_right _ _
  | accept id userId => exact Nat.le_refl _
  | remove id => exact Nat.le_refl _

theorem readings_le_run (activities : List Activity) (links : Links) :
    links.readings ≤ (links.run invitationUrl clock activities).readings := by
  induction activities generalizing links with
  | nil => exact Nat.le_refl _
  | cons activity rest ih =>
      exact Nat.le_trans (readings_le_step activity links) (ih _)

theorem ValidFrom.mono {start finish later sooner : Nat}
    (valid : ValidFrom clock row start finish) (hstart : start ≤ later)
    (hfinish : sooner ≤ finish) : ValidFrom clock row later sooner :=
  fun reading hlater hsooner => valid reading
    (Nat.le_trans hstart hlater) (Nat.lt_of_lt_of_le hsooner hfinish)

theorem Leads.run {activities : List Activity}
    (leads : Leads payload row links.table)
    (undisturbed : ∀ activity ∈ activities,
      ¬ activity.Disturbs payload row.id)
    (valid : ValidFrom clock row links.readings
      (links.run invitationUrl clock activities).readings) :
    Leads payload row (links.run invitationUrl clock activities).table := by
  induction activities generalizing links with
  | nil => exact leads
  | cons activity rest ih =>
      have hstep := leads.step (undisturbed activity List.mem_cons_self)
        (valid.mono (Nat.le_refl _) (readings_le_run rest _))
      exact ih hstep
        (fun other hother => undisturbed other (List.mem_cons_of_mem _ hother))
        (valid.mono (readings_le_step activity links) (Nat.le_refl _))

end Leading

/-- A call answers the open link of its kind that lasts longest, or makes the
one that there is; later calls answer the same link, as long as it is valid and
neither accepted, removed nor followed by an invitation of its kind. -/
theorem generateLink_reuses (invitationUrl : String → String)
    (clock : Nat → Nat) {payload : InvitationPayload} {token : String}
    {links : Links} (named : payload.sender ≠ "")
    (distinct : (links.table.map Invitation.id).Nodup)
    (fresh : token ∉ links.table.map Invitation.id) :
    Answers invitationUrl clock payload token links
      (generateLink invitationUrl clock payload token links).1
      (generateLink invitationUrl clock payload token links).2 ∧
    ∀ row ∈ (generateLink invitationUrl clock payload token links).1.table,
      (generateLink invitationUrl clock payload token links).2 =
        .ok ⟨invitationUrl row.id, row.id⟩ →
      ∀ activities : List Activity,
        (∀ activity ∈ activities, ¬ activity.Disturbs payload row.id) →
      ∀ later, ValidFrom clock row links.readings
          (generateLink invitationUrl clock payload later
            ((generateLink invitationUrl clock payload token links).1.run
              invitationUrl clock activities)).1.readings →
        (generateLink invitationUrl clock payload later
            ((generateLink invitationUrl clock payload token links).1.run
              invitationUrl clock activities)).2 =
          .ok ⟨invitationUrl row.id, row.id⟩ := by
  refine ⟨generateLink_answers invitationUrl clock named fresh, ?_⟩
  intro row hrow hanswer activities hundisturbed later hvalid
  have hfirst := @readings_le_generateLink invitationUrl clock payload token
    links named
  have hrun := @readings_le_run invitationUrl clock activities
    (generateLink invitationUrl clock payload token links).1
  have hlast := @readings_le_generateLink invitationUrl clock payload later
    ((generateLink invitationUrl clock payload token links).1.run
      invitationUrl clock activities) named
  have hleads := leads_of_answer named distinct hrow hanswer
    (hvalid.mono (Nat.le_refl _) (Nat.le_trans hrun hlast))
  have hkept := hleads.run hundisturbed (hvalid.mono hfirst hlast)
  rw [hkept.generateLink named
    (hvalid.mono (Nat.le_trans hfirst hrun) (Nat.le_refl _))]

/-- Bob makes a link in between. -/
theorem alice_link_reused :
    (generateLink ("https://signup.example.org/?invitation_token=" ++ ·)
      (fun _ => 5) ⟨"@alice:example.org", none, none⟩ "3"
      ((generateLink ("https://signup.example.org/?invitation_token=" ++ ·)
        (fun _ => 5) ⟨"@alice:example.org", none, none⟩ "1" ⟨[], 0⟩).1.run
          ("https://signup.example.org/?invitation_token=" ++ ·) (fun _ => 5)
          [.generate (some "@bob:example.org") none none "2"])).2 =
      .ok ⟨"https://signup.example.org/?invitation_token=1", "1"⟩ :=
  (generateLink_reuses ("https://signup.example.org/?invitation_token=" ++ ·)
    (fun _ => 5) (by decide) (by simp) (by simp)).2
    (createInvitation 5 "1" ⟨"@alice:example.org", none, none⟩)
    (List.mem_singleton.mpr rfl) rfl
    [.generate (some "@bob:example.org") none none "2"]
    (by simp [Activity.Disturbs]) "3" fun _ _ _ =>
      (by decide : 5 < 5 + expirationDelay)

end TwakeKickstart.TomServer.Invitations
