import Mathlib.Data.List.Nodup
import TwakeKickstart.TomServer.Invitations.Replies

namespace TwakeKickstart.TomServer.Invitations

open Library

/-! What is left of the account data of a user once his invitations are
processed. -/

/-- The (user, room) pairs of the document. -/
def entries (direct : DirectRooms) : List (String × String) :=
  direct.flatMap fun (user, rooms) => rooms.map fun room => (user, room)

def PrivateChat.entry (chat : PrivateChat) : String × String :=
  (chat.invitation.sender, chat.room)

/-- The invitations that calls of the user have processed, by their rooms. -/
def Vars.chatsOf (vars : Vars) (user : String) : List PrivateChat :=
  vars.rooms.filter fun chat => chat.request.userId == user

/-- The document has the entries that it had, and those of the invitations that
were processed. -/
def Preserved (before : DirectRooms) (user : String) (vars : Vars) : Prop :=
  (∀ entry ∈ entries before, entry ∈ entries (vars.direct user)) ∧
    ∀ chat ∈ vars.chatsOf user, chat.entry ∈ entries (vars.direct user)

/-- No call for the user fails, and the Matrix server gives every room a name of
its own. -/
def Successful (before : DirectRooms) (user : String) (loop : AcceptLoop) :
    Event → Prop
  | .complete index outcome => ∀ operation,
      loop.pending[index]? = some operation →
      (operation.request.userId = user → outcome.fails = false) ∧
      ∀ chat ∈ operation.newRooms outcome,
        (∀ other ∈ loop.vars.rooms, other.room ≠ chat.room) ∧
        ∀ entry ∈ entries before, entry.2 ≠ chat.room
  | _ => True

/-- Nothing is under way for the user. -/
def Completed (user : String) (loop : AcceptLoop) : Prop :=
  ∀ operation ∈ loop.pending, operation.request.userId ≠ user

/-- One of the rooms of the user is all that the document has. -/
def Replaced (user : String) (vars : Vars) : Prop :=
  ∃ chat ∈ vars.chatsOf user,
    vars.direct user = [(chat.invitation.sender, [chat.room])]

structure Replacing (before : DirectRooms) (user : String)
    (loop : AcceptLoop) : Prop where
  document : loop.vars.direct user = before ∨ Replaced user loop.vars
  chats : ∀ chat ∈ loop.vars.chatsOf user, Replaced user loop.vars ∨
    ∃ awaited, .markAsDirectMessage chat.request chat.invitation awaited
      chat.room ∈ loop.pending
  marks : ∀ request invitation awaited room,
    .markAsDirectMessage request invitation awaited room ∈ loop.pending →
    ⟨request, invitation, room⟩ ∈ loop.vars.rooms
  distinct : (loop.vars.rooms.map PrivateChat.room).Nodup
  fresh : ∀ chat ∈ loop.vars.rooms, ∀ entry ∈ entries before,
    entry.2 ≠ chat.room

section Steps

variable {previous : DirectRooms} {user : String}
variable {outcome : Outcome} {operation : Operation}
variable {before after : AcceptLoop} {rest : List Operation}

theorem mem_chatsOf {vars : Vars} {chat : PrivateChat} :
    chat ∈ vars.chatsOf user ↔
      chat ∈ vars.rooms ∧ chat.request.userId = user := by
  simp [Vars.chatsOf, List.mem_filter]

theorem Replacing.begin (replacing : Replacing previous user before)
    {first : Operation}
    (query : ∀ request invitation awaited room,
      first ≠ .markAsDirectMessage request invitation awaited room) :
    Replacing previous user (AcceptLoop.begin before first) := by
  refine ⟨replacing.document, ?_, ?_, replacing.distinct, replacing.fresh⟩
  · intro chat hchat
    rcases replacing.chats chat hchat with hreplaced | ⟨awaited, hpending⟩
    · exact .inl hreplaced
    · exact .inr ⟨awaited, List.mem_append_left _ hpending⟩
  · intro request invitation awaited room hmark
    rcases List.mem_append.mp hmark with hold | hnew
    · exact replacing.marks request invitation awaited room hold
    · exact absurd (List.mem_singleton.mp hnew).symm (query _ _ _ _)

theorem Replaced.later {vars later : Vars} (replaced : Replaced user vars)
    (direct : later.direct user = vars.direct user)
    (rooms : ∀ chat ∈ vars.rooms, chat ∈ later.rooms) :
    Replaced user later := by
  obtain ⟨chat, hchat, hdirect⟩ := replaced
  obtain ⟨hmem, huser⟩ := mem_chatsOf.mp hchat
  exact ⟨chat, mem_chatsOf.mpr ⟨rooms chat hmem, huser⟩, direct.trans hdirect⟩

theorem Replacing.rooms (replacing : Replacing previous user before)
    (fresh : ∀ chat ∈ operation.newRooms outcome,
      (∀ other ∈ before.vars.rooms, other.room ≠ chat.room) ∧
      ∀ entry ∈ entries previous, entry.2 ≠ chat.room) :
    ((before.vars.rooms ++ operation.newRooms outcome).map
        PrivateChat.room).Nodup ∧
      ∀ chat ∈ before.vars.rooms ++ operation.newRooms outcome,
        ∀ entry ∈ entries previous, entry.2 ≠ chat.room := by
  refine ⟨?_, ?_⟩
  · rw [List.map_append, List.nodup_append]
    refine ⟨replacing.distinct, ?_, ?_⟩
    · rcases newRooms_cases outcome operation with hnone |
        ⟨_, _, _, _, _, hone⟩
      · rw [hnone]
        exact List.nodup_nil
      · rw [hone]
        exact List.nodup_singleton _
    · intro room hroom other hother hsame
      obtain ⟨old, hold, rfl⟩ := List.mem_map.mp hroom
      obtain ⟨chat, hchat, rfl⟩ := List.mem_map.mp hother
      exact (fresh chat hchat).1 old hold hsame
  · intro chat hchat
    rcases List.mem_append.mp hchat with hold | hnew
    · exact replacing.fresh chat hold
    · exact (fresh chat hnew).2

theorem Replacing.aside (replacing : Replacing previous user before)
    (completes : Loop.Completes react before outcome operation rest after)
    (fresh : ∀ chat ∈ operation.newRooms outcome,
      (∀ other ∈ before.vars.rooms, other.room ≠ chat.room) ∧
      ∀ entry ∈ entries previous, entry.2 ≠ chat.room)
    (direct : operation.newDirect outcome before.vars.direct user =
      before.vars.direct user)
    (kept : ∀ chat ∈ operation.newRooms outcome, chat.request.userId = user →
      ∃ awaited, .markAsDirectMessage chat.request chat.invitation awaited
        chat.room ∈ (react outcome operation before.vars).2)
    (other : ∀ request invitation awaited room, request.userId = user →
      operation ≠ .markAsDirectMessage request invitation awaited room) :
    Replacing previous user after := by
  have hrooms : after.vars.rooms =
      before.vars.rooms ++ operation.newRooms outcome := by
    rw [completes.vars, react_rooms]
  have hdirect : after.vars.direct user = before.vars.direct user := by
    rw [completes.vars, react_direct, direct]
  have hreplaced : Replaced user before.vars → Replaced user after.vars :=
    fun replaced => replaced.later hdirect
      fun chat hchat => hrooms ▸ List.mem_append_left _ hchat
  obtain ⟨hdistinct, hfresh⟩ := replacing.rooms fresh
  refine ⟨?_, ?_, ?_, hrooms ▸ hdistinct, hrooms ▸ hfresh⟩
  · rcases replacing.document with hsame | hlast
    · exact .inl (hdirect.trans hsame)
    · exact .inr (hreplaced hlast)
  · intro chat hchat
    obtain ⟨hmem, huser⟩ := mem_chatsOf.mp hchat
    rw [hrooms] at hmem
    rcases List.mem_append.mp hmem with hold | hnew
    · rcases replacing.chats chat (mem_chatsOf.mpr ⟨hold, huser⟩) with
        hlast | ⟨awaited, hpending⟩
      · exact .inl (hreplaced hlast)
      · rcases completes.mem_before hpending with hsame | hafter
        · exact absurd hsame.symm (other _ _ _ _ huser)
        · exact .inr ⟨awaited, hafter⟩
    · obtain ⟨awaited, hissued⟩ := kept chat hnew huser
      refine .inr ⟨awaited, ?_⟩
      rw [completes.issued]
      exact List.mem_append_right _ hissued
  · intro request invitation awaited room hmark
    rw [hrooms]
    rcases completes.mem_after hmark with ⟨_, hbefore⟩ | hissued
    · exact List.mem_append_left _
        (replacing.marks request invitation awaited room hbefore)
    · obtain ⟨rfl, rfl, hfails⟩ := react_markAsDirectMessage hissued
      refine List.mem_append_right _ ?_
      simp [Operation.newRooms, Outcome.effective, hfails]

theorem Replacing.complete (replacing : Replacing previous user before)
    (completes : Loop.Completes react before outcome operation rest after)
    (healthy : operation.request.userId = user → outcome.fails = false)
    (fresh : ∀ chat ∈ operation.newRooms outcome,
      (∀ other ∈ before.vars.rooms, other.room ≠ chat.room) ∧
      ∀ entry ∈ entries previous, entry.2 ≠ chat.room) :
    Replacing previous user after := by
  cases operation with
  | createPrivateChat request invitation awaited =>
      refine replacing.aside completes fresh rfl ?_ fun _ _ _ _ _ h => by cases h
      intro chat hchat huser
      simp only [Operation.newRooms] at hchat
      split at hchat
      · cases List.mem_singleton.mp hchat
        refine ⟨awaited, ?_⟩
        simp [react, reply, onRoom, healthy huser]
      · cases hchat
  | markAsDirectMessage request invitation awaited room =>
      by_cases huser : request.userId = user
      · have hfails := healthy huser
        have hrooms : after.vars.rooms = before.vars.rooms := by
          rw [completes.vars, react_rooms]
          exact List.append_nil _
        have hreplaced : Replaced user after.vars := by
          refine ⟨⟨request, invitation, room⟩, mem_chatsOf.mpr ⟨?_, huser⟩, ?_⟩
          · rw [hrooms]
            exact replacing.marks request invitation awaited room
              completes.mem_pending
          · rw [completes.vars, react_direct, ← huser]
            simp [Operation.newDirect, Outcome.effective, hfails]
        refine ⟨.inr hreplaced, fun _ _ => .inl hreplaced, ?_,
          hrooms ▸ replacing.distinct, hrooms ▸ replacing.fresh⟩
        intro other another wait place hmark
        rw [hrooms]
        rcases completes.mem_after hmark with ⟨_, hbefore⟩ | hissued
        · exact replacing.marks other another wait place hbefore
        · cases (react_markAsDirectMessage hissued).1
      · refine replacing.aside completes fresh ?_ (fun _ h => by cases h) ?_
        · simp only [Operation.newDirect]
          split
          · exact Function.update_of_ne (Ne.symm huser) _ _
          · rfl
        · intro other another wait place hother hsame
          cases hsame
          exact huser hother
  | _ =>
      exact replacing.aside completes fresh rfl (fun _ h => by cases h)
        fun _ _ _ _ _ h => by cases h

end Steps

variable {table : List Invitation} {direct : String → DirectRooms}
variable {loop : AcceptLoop} {user : String}

theorem replacing_start :
    Replacing (direct user) user (startLoop table direct) :=
  ⟨.inl rfl, fun _ h => absurd h List.not_mem_nil,
    fun _ _ _ _ h => absurd h List.not_mem_nil, List.nodup_nil,
    fun _ h => absurd h List.not_mem_nil⟩

theorem replacing_of_reachable
    (reached : Reachable step (Successful (direct user) user)
      (startLoop table direct) loop) :
    Replacing (direct user) user loop := by
  refine reached.invariant (Replacing (direct user) user) replacing_start ?_
  intro before event after replacing successful stepped
  cases event with
  | request id userId authorization =>
      cases stepped
      exact replacing.begin fun _ _ _ _ => nofun
  | accept id userId authorization =>
      cases stepped
      exact replacing.begin fun _ _ _ _ => nofun
  | complete index outcome =>
      have hcompleted : before.complete react index outcome = some after :=
        stepped
      obtain ⟨operation, hoperation, completes⟩ :=
        Loop.complete_cases hcompleted
      obtain ⟨hhealthy, hfresh⟩ := successful operation hoperation
      exact replacing.complete completes hhealthy hfresh

/-- The entries of a user are preserved exactly when there were none and his
calls have processed one invitation. -/
theorem directMessages_preserved_iff
    (reached : Reachable step (Successful (direct user) user)
      (startLoop table direct) loop)
    (completed : Completed user loop)
    (nonempty : loop.vars.chatsOf user ≠ []) :
    Preserved (direct user) user loop.vars ↔
      entries (direct user) = [] ∧ (loop.vars.chatsOf user).length = 1 := by
  have hreplacing := replacing_of_reachable reached
  obtain ⟨first, hfirst⟩ := List.exists_mem_of_ne_nil _ nonempty
  have hreplaced : Replaced user loop.vars := by
    rcases hreplacing.chats first hfirst with hlast | ⟨awaited, hpending⟩
    · exact hlast
    · exact absurd (mem_chatsOf.mp hfirst).2 (completed _ hpending)
  obtain ⟨last, hlast, hdirect⟩ := hreplaced
  have hentries : entries (loop.vars.direct user) = [last.entry] := by
    rw [hdirect]
    rfl
  unfold Preserved
  rw [hentries]
  constructor
  · rintro ⟨hbefore, hchats⟩
    refine ⟨?_, ?_⟩
    · refine List.eq_nil_iff_forall_not_mem.mpr fun entry hentry => ?_
      have hsame := List.mem_singleton.mp (hbefore entry hentry)
      exact hreplacing.fresh last (mem_chatsOf.mp hlast).1 entry hentry
        (congrArg Prod.snd hsame)
    · have hnodup : (loop.vars.chatsOf user).Nodup :=
        (List.Nodup.of_map _ hreplacing.distinct).filter _
      have hall : ∀ chat ∈ loop.vars.chatsOf user, chat = last := by
        intro chat hchat
        have hsame := List.mem_singleton.mp (hchats chat hchat)
        exact List.inj_on_of_nodup_map hreplacing.distinct
          (mem_chatsOf.mp hchat).1 (mem_chatsOf.mp hlast).1
          (congrArg Prod.snd hsame)
      have hreplicate := List.eq_replicate_of_mem hall
      rw [hreplicate, List.nodup_replicate] at hnodup
      have hpositive := List.length_pos_iff.mpr nonempty
      omega
  · rintro ⟨hnone, hone⟩
    rw [hnone]
    refine ⟨fun _ h => absurd h List.not_mem_nil, fun chat hchat => ?_⟩
    obtain ⟨only, honly⟩ := List.length_eq_one_iff.mp hone
    rw [honly] at hchat hlast
    rw [List.mem_singleton.mp hchat, List.mem_singleton.mp hlast]
    exact List.mem_singleton_self _

/-! One invitation for a user without entries, and for one who has an entry. -/

def lonelyTable : List Invitation :=
  [⟨"1", "@alice:example.org", none, none, 100, some 0, none⟩]

def oneAccept : List Event :=
  [.accept "1" "@bob:example.org" "Bearer b", .complete 0 (.answered 50 ""),
    .complete 0 (.answered 50 "!a:example.org"),
    .complete 0 (.answered 50 ""), .complete 0 (.answered 50 "")]

def successfully (previous : DirectRooms) (loop : AcceptLoop) : Event → Bool
  | .complete _ outcome =>
      !outcome.fails && (loop.vars.rooms.all fun chat =>
        chat.room != outcome.room) &&
        (entries previous).all fun entry => entry.2 != outcome.room
  | _ => true

theorem successful_of_successfully {previous : DirectRooms}
    {loop : AcceptLoop} {event : Event}
    (success : successfully previous loop event = true) :
    Successful previous user loop event := by
  cases event with
  | complete index outcome =>
      simp only [successfully, Bool.and_eq_true, Bool.not_eq_true',
        List.all_eq_true, bne_iff_ne] at success
      obtain ⟨⟨hhealthy, hrooms⟩, hentries⟩ := success
      intro operation _
      refine ⟨fun _ => hhealthy, fun chat hchat => ?_⟩
      rcases newRooms_cases outcome operation with hnone |
        ⟨request, invitation, _, _, _, hone⟩
      · rw [hnone] at hchat
        cases hchat
      · rw [hone] at hchat
        cases List.mem_singleton.mp hchat
        exact ⟨hrooms, hentries⟩
  | request id userId authorization => trivial
  | accept id userId authorization => trivial

theorem directMessages_preserved_first :
    ∃ loop, runEvents step (successfully []) oneAccept
        (startLoop lonelyTable fun _ => []) = some loop ∧
      Preserved [] "@bob:example.org" loop.vars := by
  have hrun : (runEvents step (successfully []) oneAccept
      (startLoop lonelyTable fun _ => [])).map (fun loop =>
        (loop.pending, (loop.vars.chatsOf "@bob:example.org").length)) =
      some ([], 1) := by decide
  obtain ⟨loop, hloop, hends⟩ := Option.map_eq_some_iff.mp hrun
  obtain ⟨hpending, hone⟩ := Prod.mk.inj hends
  refine ⟨loop, hloop, ?_⟩
  have hreached : Reachable step (Successful [] "@bob:example.org")
      (startLoop lonelyTable fun _ => []) loop :=
    reachable_of_runEvents (fun _ _ => successful_of_successfully) hloop
  refine (@directMessages_preserved_iff lonelyTable (fun _ => []) loop
    "@bob:example.org" hreached ?_ ?_).mpr ⟨rfl, hone⟩
  · intro operation hoperation
    rw [hpending] at hoperation
    cases hoperation
  · intro hnone
    rw [hnone] at hone
    cases hone

def talksWithDan : DirectRooms := [("@dan:example.org", ["!d:example.org"])]

/-- The conversation that the user had is lost. -/
theorem accept_drops_conversation :
    ¬ ∀ (table : List Invitation) (direct : String → DirectRooms)
      (user : String) (loop : AcceptLoop),
      Reachable step (Successful (direct user) user) (startLoop table direct)
        loop → Completed user loop → loop.vars.chatsOf user ≠ [] →
      Preserved (direct user) user loop.vars := by
  intro h
  have hrun : (runEvents step (successfully talksWithDan) oneAccept
      (startLoop lonelyTable fun _ => talksWithDan)).map (fun loop =>
        (loop.pending, (loop.vars.chatsOf "@bob:example.org").length,
          loop.vars.direct "@bob:example.org")) =
      some ([], 1, [("@alice:example.org", ["!a:example.org"])]) := by
    decide
  obtain ⟨loop, hloop, hends⟩ := Option.map_eq_some_iff.mp hrun
  obtain ⟨hpending, hchats, hdirect⟩ :
      loop.pending = [] ∧
        (loop.vars.chatsOf "@bob:example.org").length = 1 ∧
        loop.vars.direct "@bob:example.org" =
          [("@alice:example.org", ["!a:example.org"])] := by
    simpa using hends
  have hpreserved := h lonelyTable (fun _ => talksWithDan) "@bob:example.org"
    loop (reachable_of_runEvents (fun _ _ => successful_of_successfully) hloop)
    (fun _ hoperation => by rw [hpending] at hoperation; cases hoperation)
    (fun hnone => by rw [hnone] at hchats; cases hchats)
  have hlost := hpreserved.1 ("@dan:example.org", "!d:example.org") (by decide)
  rw [hdirect] at hlost
  exact absurd hlost (by decide)

end TwakeKickstart.TomServer.Invitations
