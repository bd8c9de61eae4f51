import Mathlib.Data.List.Nodup
import TwakeKickstart.Library.Script
import TwakeKickstart.Library.Transition

namespace TwakeKickstart.Library

/-! Operations on a shared object that overlap in time, and what it means that
each took effect at one moment between its invocation and its answer.  Several
operations may take effect at the same moment, as one turn. -/

namespace Linearizable

inductive Mark (Op Reply : Type) where
  | invoked (id : Nat) (op : Op)
  | answered (id : Nat) (reply : Reply)

/-- What the clients see, in the order of time. -/
abbrev History (Op Reply : Type) : Type := List (Mark Op Reply)

structure Entry (Op Reply : Type) where
  id : Nat
  op : Op
  reply : Reply

def Entry.effect {Op Reply : Type} (entry : Entry Op Reply) : Op × Reply :=
  (entry.op, entry.reply)

structure Turn (Op Reply State : Type) where
  entries : List (Entry Op Reply)
  after : State

/-- What the operations of one turn do together, with these replies. -/
abbrev Spec (Op Reply State : Type) : Type :=
  List (Op × Reply) → State → State → Prop

variable {Op Reply State : Type}

def Turn.effects (turn : Turn Op Reply State) : List (Op × Reply) :=
  turn.entries.map Entry.effect

def Turn.join (entry : Entry Op Reply) (turn : Turn Op Reply State) :
    Turn Op Reply State :=
  { turn with entries := entry :: turn.entries }

def stateAfter : State → List (Turn Op Reply State) → State
  | state, [] => state
  | _, turn :: rest => stateAfter turn.after rest

def Legal (spec : Spec Op Reply State) :
    State → List (Turn Op Reply State) → Prop
  | _, [] => True
  | state, turn :: rest =>
      spec turn.effects state turn.after ∧ Legal spec turn.after rest

def entries (order : List (Turn Op Reply State)) : List (Entry Op Reply) :=
  order.flatMap Turn.entries

def ids (order : List (Turn Op Reply State)) : List Nat :=
  (entries order).map Entry.id

/-- The first operation had been answered when the second was invoked. -/
def Precedes (history : History Op Reply) (first second : Nat) : Prop :=
  ∃ earlier later reply op, history = earlier ++ later ∧
    .answered first reply ∈ earlier ∧ .invoked second op ∈ later

def Before (order : List (Turn Op Reply State)) (first second : Nat) : Prop :=
  ∃ earlier later, order = earlier ++ later ∧ first ∈ ids earlier ∧
    second ∈ ids later

structure Linearizes (spec : Spec Op Reply State) (start : State)
    (history : History Op Reply) (order : List (Turn Op Reply State)) :
    Prop where
  legal : Legal spec start order
  nodup : (ids order).Nodup
  invoked : ∀ entry ∈ entries order, .invoked entry.id entry.op ∈ history
  answered : ∀ id reply, .answered id reply ∈ history →
    ∃ entry ∈ entries order, entry.id = id ∧ entry.reply = reply
  inOrder : ∀ first second, Precedes history first second →
    second ∈ ids order → Before order first second

section Orders

variable {start : State} {spec : Spec Op Reply State}
variable {before after : List (Turn Op Reply State)}
variable {turn : Turn Op Reply State} {entry : Entry Op Reply}

@[simp] theorem stateAfter_nil : stateAfter start
    ([] : List (Turn Op Reply State)) = start := rfl

@[simp] theorem stateAfter_cons :
    stateAfter start (turn :: after) = stateAfter turn.after after := rfl

@[simp] theorem stateAfter_append : stateAfter start (before ++ after) =
    stateAfter (stateAfter start before) after := by
  induction before generalizing start with
  | nil => rfl
  | cons turn before ih => exact ih

@[simp] theorem legal_append : Legal spec start (before ++ after) ↔
    Legal spec start before ∧ Legal spec (stateAfter start before) after := by
  induction before generalizing start with
  | nil => exact (and_iff_right trivial).symm
  | cons turn before ih => exact (and_congr_right fun _ => ih).trans and_assoc.symm

@[simp] theorem entries_append :
    entries (before ++ after) = entries before ++ entries after :=
  List.flatMap_append

@[simp] theorem entries_cons :
    entries (turn :: after) = turn.entries ++ entries after :=
  List.flatMap_cons

@[simp] theorem ids_append : ids (before ++ after) = ids before ++ ids after := by
  simp [ids]

@[simp] theorem ids_cons :
    ids (turn :: after) = turn.entries.map Entry.id ++ ids after := by
  simp [ids]

@[simp] theorem ids_nil : ids ([] : List (Turn Op Reply State)) = [] := rfl

theorem mem_ids_of_mem_entries {order : List (Turn Op Reply State)}
    (h : entry ∈ entries order) : entry.id ∈ ids order :=
  List.mem_map_of_mem h

theorem Before.mem_ids {order : List (Turn Op Reply State)}
    {first second : Nat} (h : Before order first second) :
    first ∈ ids order ∧ second ∈ ids order := by
  obtain ⟨earlier, later, rfl, hfirst, hsecond⟩ := h
  rw [ids_append]
  exact ⟨List.mem_append_left _ hfirst, List.mem_append_right _ hsecond⟩

theorem stateAfter_join : stateAfter start (before ++ turn.join entry :: after) =
    stateAfter start (before ++ turn :: after) := by
  simp [Turn.join]

theorem turn_cases {first last : List (Turn Op Reply State)}
    {other : Turn Op Reply State}
    (h : before ++ turn :: after = first ++ other :: last) :
    (∃ middle, before = first ++ other :: middle ∧
        last = middle ++ turn :: after) ∨
      (first = before ∧ other = turn ∧ last = after) ∨
      ∃ middle, first = before ++ turn :: middle ∧
        after = middle ++ other :: last := by
  obtain ⟨middle, rfl, hrest⟩ | ⟨middle, rfl, hrest⟩ :=
    List.append_eq_append_iff.mp h
  · cases middle with
    | nil =>
        obtain ⟨rfl, rfl⟩ := List.cons.inj hrest
        exact .inr (.inl ⟨List.append_nil _, rfl, rfl⟩)
    | cons next middle =>
        obtain ⟨rfl, rfl⟩ := List.cons.inj hrest
        exact .inr (.inr ⟨middle, rfl, rfl⟩)
  · cases middle with
    | nil =>
        obtain ⟨rfl, rfl⟩ := List.cons.inj hrest
        exact .inr (.inl ⟨(List.append_nil _).symm, rfl, rfl⟩)
    | cons next middle =>
        obtain ⟨rfl, rfl⟩ := List.cons.inj hrest
        exact .inl ⟨middle, rfl, rfl⟩

theorem exists_turn_of_mem {order : List (Turn Op Reply State)}
    (h : entry ∈ entries order) :
    ∃ before turn after, order = before ++ turn :: after ∧
      entry ∈ turn.entries := by
  obtain ⟨turn, hturn, hentry⟩ := List.mem_flatMap.mp h
  obtain ⟨before, after, rfl⟩ := List.append_of_mem hturn
  exact ⟨before, turn, after, rfl, hentry⟩

theorem exists_turn_undoing (property : State → Prop)
    {order : List (Turn Op Reply State)} (hfirst : property start)
    (hlast : ¬ property (stateAfter start order)) :
    ∃ before turn after, order = before ++ turn :: after ∧
      property (stateAfter start before) ∧ ¬ property turn.after := by
  induction order generalizing start with
  | nil => exact absurd hfirst hlast
  | cons turn rest ih =>
      by_cases hturn : property turn.after
      · obtain ⟨before, other, after, rfl, hbefore, hafter⟩ := ih hturn hlast
        exact ⟨turn :: before, other, after, rfl, hbefore, hafter⟩
      · exact ⟨[], turn, rest, rfl, hfirst, hturn⟩

theorem mem_ids_iff {order : List (Turn Op Reply State)} {id : Nat} :
    id ∈ ids order ↔ ∃ entry ∈ entries order, entry.id = id :=
  List.mem_map

theorem entry_eq {order : List (Turn Op Reply State)}
    (nodup : (ids order).Nodup) {other : Entry Op Reply}
    (h : entry ∈ entries order) (h' : other ∈ entries order)
    (hid : entry.id = other.id) : entry = other :=
  List.inj_on_of_nodup_map nodup h h' hid

theorem together_or_before {order : List (Turn Op Reply State)}
    {other : Entry Op Reply} (h : entry ∈ entries order)
    (h' : other ∈ entries order) :
    (∃ before turn after, order = before ++ turn :: after ∧
      entry ∈ turn.entries ∧ other ∈ turn.entries) ∨
      Before order entry.id other.id ∨ Before order other.id entry.id := by
  obtain ⟨before, turn, after, rfl, hentry⟩ := exists_turn_of_mem h
  rw [entries_append, entries_cons, List.mem_append, List.mem_append] at h'
  have hid : entry.id ∈ turn.entries.map Entry.id := List.mem_map_of_mem hentry
  rcases h' with hbefore | hturn | hafter
  · refine .inr (.inr ⟨before, turn :: after, rfl,
      mem_ids_of_mem_entries hbefore, ?_⟩)
    rw [ids_cons]
    exact List.mem_append_left _ hid
  · exact .inl ⟨before, turn, after, rfl, hentry, hturn⟩
  · refine .inr (.inl ⟨before ++ [turn], after, by simp, ?_,
      mem_ids_of_mem_entries hafter⟩)
    rw [ids_append, ids_cons]
    exact List.mem_append_right _ (List.mem_append_left _ hid)

theorem Before.exists_turns {order : List (Turn Op Reply State)}
    {other : Entry Op Reply} (nodup : (ids order).Nodup)
    (h : entry ∈ entries order) (h' : other ∈ entries order)
    (before : Before order entry.id other.id) :
    ∃ front turn middle turn' back,
      order = front ++ turn :: middle ++ turn' :: back ∧
        entry ∈ turn.entries ∧ other ∈ turn'.entries := by
  obtain ⟨earlier, later, rfl, hearlier, hlater⟩ := before
  obtain ⟨found, hfound, hid⟩ := mem_ids_iff.mp hearlier
  obtain ⟨found', hfound', hid'⟩ := mem_ids_iff.mp hlater
  obtain rfl := entry_eq nodup
    (entries_append ▸ List.mem_append_left _ hfound) h hid
  obtain rfl := entry_eq nodup
    (entries_append ▸ List.mem_append_right _ hfound') h' hid'
  obtain ⟨front, turn, between, rfl, hmem⟩ := exists_turn_of_mem hfound
  obtain ⟨between', turn', back, rfl, hmem'⟩ := exists_turn_of_mem hfound'
  exact ⟨front, turn, between ++ between', turn', back, by simp, hmem, hmem'⟩

theorem Before.asymm {order : List (Turn Op Reply State)}
    {first second : Nat} (nodup : (ids order).Nodup)
    (h : Before order first second) : ¬ Before order second first := by
  obtain ⟨earlier, later, rfl, hfirst, hsecond⟩ := h
  rintro ⟨earlier', later', horder, hsecond', hfirst'⟩
  have hdisjoint : ∀ {front back : List (Turn Op Reply State)} {id : Nat},
      (ids (front ++ back)).Nodup → id ∈ ids front → id ∉ ids back := by
    intro front back id hnodup hfront hback
    rw [ids_append] at hnodup
    exact (List.nodup_append.mp hnodup).2.2 id hfront id hback rfl
  obtain ⟨middle, rfl, rfl⟩ | ⟨middle, rfl, rfl⟩ :=
    List.append_eq_append_iff.mp horder
  · refine hdisjoint nodup hfirst ?_
    rw [ids_append]
    exact List.mem_append_right _ hfirst'
  · refine hdisjoint nodup ?_ hsecond
    rw [ids_append]
    exact List.mem_append_left _ hsecond'

/-- How an order takes in one more operation: as a turn of its own between two
others, or into a turn that is there. -/
inductive Takes (entry : Entry Op Reply) :
    List (Turn Op Reply State) → List (Turn Op Reply State) → Prop
  | between (before after : List (Turn Op Reply State)) (state : State) :
      Takes entry (before ++ after) (before ++ ⟨[entry], state⟩ :: after)
  | into (before after : List (Turn Op Reply State))
      (turn : Turn Op Reply State) :
      Takes entry (before ++ turn :: after) (before ++ turn.join entry :: after)

namespace Takes

variable {order order' : List (Turn Op Reply State)}

theorem mem_entries (takes : Takes entry order order')
    {other : Entry Op Reply} :
    other ∈ entries order' ↔ other = entry ∨ other ∈ entries order := by
  cases takes with
  | between before after state =>
      simp only [entries_append, entries_cons, List.mem_append,
        List.mem_singleton]
      tauto
  | into before after turn =>
      simp only [entries_append, entries_cons, Turn.join, List.mem_append,
        List.mem_cons]
      tauto

theorem mem_ids (takes : Takes entry order order') {id : Nat} :
    id ∈ ids order' ↔ id = entry.id ∨ id ∈ ids order := by
  simp only [ids, List.mem_map, takes.mem_entries]
  constructor
  · rintro ⟨other, rfl | hother, rfl⟩
    · exact .inl rfl
    · exact .inr ⟨other, hother, rfl⟩
  · rintro (rfl | ⟨other, hother, rfl⟩)
    · exact ⟨entry, .inl rfl, rfl⟩
    · exact ⟨other, .inr hother, rfl⟩

theorem ids_perm (takes : Takes entry order order') :
    (ids order').Perm (entry.id :: ids order) := by
  cases takes with
  | between before after state =>
      rw [ids_append, ids_cons, ids_append]
      exact List.perm_middle
  | into before after turn =>
      rw [ids_append, ids_cons, ids_append, ids_cons]
      exact List.perm_middle

theorem cut (takes : Takes entry order order')
    {earlier later : List (Turn Op Reply State)}
    (h : order = earlier ++ later) :
    ∃ earlier' later', order' = earlier' ++ later' ∧
      ids earlier ⊆ ids earlier' ∧ ids later ⊆ ids later' := by
  have grown : ∀ {first second : List (Turn Op Reply State)},
      Takes entry first second → ids first ⊆ ids second :=
    fun takes _ hmem => takes.mem_ids.mpr (.inr hmem)
  cases takes with
  | between before after state =>
      obtain ⟨middle, rfl, rfl⟩ | ⟨middle, rfl, rfl⟩ :=
        List.append_eq_append_iff.mp h
      · refine ⟨before ++ ⟨[entry], state⟩ :: middle, later, ?_,
          grown (.between before middle state), List.Subset.refl _⟩
        rw [List.append_assoc, List.cons_append]
      · refine ⟨earlier, middle ++ ⟨[entry], state⟩ :: after, ?_,
          List.Subset.refl _, grown (.between middle after state)⟩
        rw [List.append_assoc]
  | into before after turn =>
      obtain ⟨middle, rfl, hrest⟩ | ⟨middle, rfl, rfl⟩ :=
        List.append_eq_append_iff.mp h
      · obtain ⟨rfl, rfl⟩ | ⟨middle, rfl, rfl⟩ := List.cons_eq_append_iff.mp hrest
        · refine ⟨before, turn.join entry :: after, rfl, ?_,
            grown (.into [] after turn)⟩
          rw [List.append_nil]
          exact List.Subset.refl _
        · refine ⟨before ++ turn.join entry :: middle, later, ?_,
            grown (.into before middle turn), List.Subset.refl _⟩
          rw [List.append_assoc, List.cons_append]
      · refine ⟨earlier, middle ++ turn.join entry :: after, ?_,
          List.Subset.refl _, grown (.into middle after turn)⟩
        rw [List.append_assoc]

theorem keeps_before (takes : Takes entry order order') {first second : Nat}
    (h : Before order first second) : Before order' first second := by
  obtain ⟨earlier, later, horder, hfirst, hsecond⟩ := h
  obtain ⟨earlier', later', horder', hearlier, hlater⟩ := takes.cut horder
  exact ⟨earlier', later', horder', hearlier hfirst, hlater hsecond⟩

end Takes

end Orders

section Histories

variable {history : History Op Reply} {first second id : Nat}

theorem precedes_append {mark : Mark Op Reply}
    (other : ∀ op, mark ≠ .invoked second op) :
    Precedes (history ++ [mark]) first second ↔
      Precedes history first second := by
  constructor
  · rintro ⟨earlier, later, reply, op, hhistory, hanswered, hinvoked⟩
    have hlast : later ≠ [] := List.ne_nil_of_mem hinvoked
    obtain ⟨rest, last, rfl⟩ := List.eq_nil_or_concat later |>.resolve_left hlast
    rw [List.concat_eq_append, ← List.append_assoc] at hhistory
    obtain ⟨rfl, hmark⟩ := List.append_inj' hhistory rfl
    refine ⟨earlier, rest, reply, op, rfl, hanswered, ?_⟩
    rcases List.mem_append.mp (List.concat_eq_append ▸ hinvoked) with
      hmem | hend
    · exact hmem
    · cases hmark
      exact absurd (List.mem_singleton.mp hend).symm (other op)
  · rintro ⟨earlier, later, reply, op, rfl, hanswered, hinvoked⟩
    exact ⟨earlier, later ++ [mark], reply, op, List.append_assoc ..,
      hanswered, List.mem_append_left _ hinvoked⟩

theorem precedes_invoked {op : Op} (h : second ≠ id) :
    Precedes (history ++ [.invoked id op]) first second ↔
      Precedes history first second := by
  apply precedes_append
  intro other heq
  cases heq
  exact h rfl

theorem precedes_answered {reply : Reply} :
    Precedes (history ++ [.answered id reply]) first second ↔
      Precedes history first second := by
  apply precedes_append
  intro other heq
  cases heq

theorem Precedes.answered (h : Precedes history first second) :
    ∃ reply, .answered first reply ∈ history := by
  obtain ⟨earlier, later, reply, op, rfl, hanswered, -⟩ := h
  exact ⟨reply, List.mem_append_left _ hanswered⟩

theorem Precedes.invoked (h : Precedes history first second) :
    ∃ op, .invoked second op ∈ history := by
  obtain ⟨earlier, later, reply, op, rfl, -, hinvoked⟩ := h
  exact ⟨op, List.mem_append_right _ hinvoked⟩

end Histories

namespace Linearizes

variable {spec : Spec Op Reply State} {start : State}
variable {history : History Op Reply} {order : List (Turn Op Reply State)}

theorem nil (spec : Spec Op Reply State) (start : State) :
    Linearizes spec start ([] : History Op Reply) [] where
  legal := trivial
  nodup := List.nodup_nil
  invoked _ hentry := absurd hentry List.not_mem_nil
  answered _ _ hanswered := absurd hanswered List.not_mem_nil
  inOrder _ _ _ hsecond := absurd hsecond List.not_mem_nil

theorem answered_mem (linearizes : Linearizes spec start history order)
    {id : Nat} {reply : Reply} (h : .answered id reply ∈ history) :
    id ∈ ids order := by
  obtain ⟨entry, hentry, rfl, -⟩ := linearizes.answered id reply h
  exact mem_ids_of_mem_entries hentry

theorem precedes_mem (linearizes : Linearizes spec start history order)
    {first second : Nat} (h : Precedes history first second) :
    first ∈ ids order := by
  obtain ⟨reply, hanswered⟩ := h.answered
  exact linearizes.answered_mem hanswered

/-- An operation that took effect before another was not invoked after the
other's answer. -/
theorem not_precedes (linearizes : Linearizes spec start history order)
    {first second : Nat} (h : Before order first second) :
    ¬ Precedes history second first := by
  intro precedes
  exact h.asymm linearizes.nodup
    (linearizes.inOrder second first precedes h.mem_ids.1)

theorem invoke (linearizes : Linearizes spec start history order) {id : Nat}
    {op : Op} (fresh : id ∉ ids order) :
    Linearizes spec start (history ++ [.invoked id op]) order where
  legal := linearizes.legal
  nodup := linearizes.nodup
  invoked entry hentry :=
    List.mem_append_left _ (linearizes.invoked entry hentry)
  answered other reply hanswered := by
    rcases List.mem_append.mp hanswered with hmem | hlast
    · exact linearizes.answered other reply hmem
    · cases List.mem_singleton.mp hlast
  inOrder first second precedes hsecond := by
    have hne : second ≠ id := fun heq => fresh (heq ▸ hsecond)
    exact linearizes.inOrder first second ((precedes_invoked hne).mp precedes)
      hsecond

theorem answer (linearizes : Linearizes spec start history order) {id : Nat}
    {reply : Reply} (found : ∃ entry ∈ entries order, entry.id = id ∧
      entry.reply = reply) :
    Linearizes spec start (history ++ [.answered id reply]) order where
  legal := linearizes.legal
  nodup := linearizes.nodup
  invoked entry hentry :=
    List.mem_append_left _ (linearizes.invoked entry hentry)
  answered other answer hanswered := by
    rcases List.mem_append.mp hanswered with hmem | hlast
    · exact linearizes.answered other answer hmem
    · cases List.mem_singleton.mp hlast
      exact found
  inOrder first second precedes hsecond :=
    linearizes.inOrder first second (precedes_answered.mp precedes) hsecond

/-- A pending operation takes effect, now or at an earlier moment after its
invocation. -/
theorem take (linearizes : Linearizes spec start history order)
    {entry : Entry Op Reply} {order' : List (Turn Op Reply State)}
    (takes : Takes entry order order') (legal : Legal spec start order')
    (pending : entry.id ∉ ids order)
    (invoked : .invoked entry.id entry.op ∈ history)
    (inOrder : ∀ first, Precedes history first entry.id →
      Before order' first entry.id) :
    Linearizes spec start history order' where
  legal := legal
  nodup := takes.ids_perm.nodup_iff.mpr
    (List.nodup_cons.mpr ⟨pending, linearizes.nodup⟩)
  invoked other hother := by
    rcases takes.mem_entries.mp hother with rfl | hmem
    · exact invoked
    · exact linearizes.invoked other hmem
  answered id reply hanswered := by
    obtain ⟨other, hother, hreply⟩ := linearizes.answered id reply hanswered
    exact ⟨other, takes.mem_entries.mpr (.inr hother), hreply⟩
  inOrder first second precedes hsecond := by
    rcases takes.mem_ids.mp hsecond with rfl | hmem
    · exact inOrder first precedes
    · exact takes.keeps_before (linearizes.inOrder first second precedes hmem)

theorem take_between {before after : List (Turn Op Reply State)}
    (linearizes : Linearizes spec start history (before ++ after))
    {entry : Entry Op Reply} {state : State}
    (legal : Legal spec start (before ++ ⟨[entry], state⟩ :: after))
    (pending : entry.id ∉ ids (before ++ after))
    (invoked : .invoked entry.id entry.op ∈ history)
    (preceded : ∀ first, Precedes history first entry.id →
      first ∈ ids before) :
    Linearizes spec start history (before ++ ⟨[entry], state⟩ :: after) := by
  refine linearizes.take (.between before after state) legal pending invoked ?_
  intro first precedes
  exact ⟨before, _, rfl, preceded first precedes, by simp⟩

theorem take_into {before after : List (Turn Op Reply State)}
    {turn : Turn Op Reply State}
    (linearizes : Linearizes spec start history (before ++ turn :: after))
    {entry : Entry Op Reply}
    (joined : spec (entry.effect :: turn.effects) (stateAfter start before)
      turn.after)
    (pending : entry.id ∉ ids (before ++ turn :: after))
    (invoked : .invoked entry.id entry.op ∈ history)
    (preceded : ∀ first, Precedes history first entry.id →
      first ∈ ids before) :
    Linearizes spec start history (before ++ turn.join entry :: after) := by
  have hlegal := legal_append.mp linearizes.legal
  refine linearizes.take (.into before after turn)
    (legal_append.mpr ⟨hlegal.1, joined, hlegal.2.2⟩) pending invoked ?_
  intro first precedes
  exact ⟨before, _, rfl, preceded first precedes, by simp [Turn.join]⟩

theorem take_now (linearizes : Linearizes spec start history order)
    {entry : Entry Op Reply} {state : State}
    (effect : spec [entry.effect] (stateAfter start order) state)
    (pending : entry.id ∉ ids order)
    (invoked : .invoked entry.id entry.op ∈ history) :
    Linearizes spec start history (order ++ [⟨[entry], state⟩]) := by
  have horder : order = order ++ [] := (List.append_nil order).symm
  have hlinearizes : Linearizes spec start history (order ++ []) :=
    horder ▸ linearizes
  exact hlinearizes.take_between
    (legal_append.mpr ⟨linearizes.legal, effect, trivial⟩) (horder ▸ pending)
    invoked fun first precedes => linearizes.precedes_mem precedes

end Linearizes

/-! Scripts that serve the operations, over one world. -/

variable {Command World Choice : Type} {Answer : Command → Type}

/-- A script is gone when its reply has been sent. -/
structure Clients (Op Reply : Type) (Command : Type)
    (Answer : Command → Type) (World : Type) where
  world : World
  threads : List (Op × Option (Script Command Answer Reply))
  history : History Op Reply

inductive Event (Op Choice : Type) where
  | invoke (op : Op)
  | act (id : Nat) (choice : Choice)

namespace Clients

/-- What the world does with a command, where the environment has a choice. -/
abbrev Executes (Command : Type) (Answer : Command → Type)
    (World Choice : Type) : Type :=
  Choice → (command : Command) → World → Answer command × World

def act (execute : Executes Command Answer World Choice)
    (sessions : Clients Op Reply Command Answer World) (id : Nat)
    (choice : Choice) : Option (Clients Op Reply Command Answer World) :=
  match sessions.threads[id]? with
  | some (op, some (.call command next)) =>
      let (answer, world) := execute choice command sessions.world
      some { sessions with
        world
        threads := sessions.threads.set id (op, some (next answer)) }
  | some (op, some (.done reply)) =>
      some { sessions with
        threads := sessions.threads.set id (op, none)
        history := sessions.history ++ [.answered id reply] }
  | _ => none

def step (script : Op → Script Command Answer Reply)
    (execute : Executes Command Answer World Choice)
    (sessions : Clients Op Reply Command Answer World) :
    Event Op Choice → Option (Clients Op Reply Command Answer World)
  | .invoke op => some { sessions with
      threads := sessions.threads ++ [(op, some (script op))]
      history := sessions.history ++ [.invoked sessions.threads.length op] }
  | .act id choice => sessions.act execute id choice

variable {execute : Executes Command Answer World Choice}
variable {sessions after : Clients Op Reply Command Answer World}

theorem act_cases {id : Nat} {choice : Choice}
    (h : sessions.act execute id choice = some after) :
    (∃ op command next,
      sessions.threads[id]? = some (op, some (.call command next)) ∧
      after.world = (execute choice command sessions.world).2 ∧
      after.history = sessions.history ∧
      after.threads = sessions.threads.set id
        (op, some (next (execute choice command sessions.world).1))) ∨
    (∃ op reply, sessions.threads[id]? = some (op, some (.done reply)) ∧
      after.world = sessions.world ∧
      after.history = sessions.history ++ [.answered id reply] ∧
      after.threads = sessions.threads.set id (op, none)) := by
  unfold act at h
  split at h
  · rename_i op command next hthread
    cases h
    exact .inl ⟨op, command, next, hthread, rfl, rfl, rfl⟩
  · rename_i op reply hthread
    cases h
    exact .inr ⟨op, reply, hthread, rfl, rfl, rfl⟩
  · cases h

def empty (world : World) : Clients Op Reply Command Answer World where
  world := world
  threads := []
  history := []

theorem getElem?_set_cases {α : Type} {threads : List α} {id other : Nat}
    {new thread : α} (h : (threads.set id new)[other]? = some thread) :
    (other = id ∧ thread = new) ∨
      (other ≠ id ∧ threads[other]? = some thread) := by
  rw [List.getElem?_set] at h
  split at h
  · rename_i heq
    split at h
    · exact .inl ⟨heq.symm, (Option.some.inj h).symm⟩
    · cases h
  · rename_i hne
    exact .inr ⟨fun heq => hne heq.symm, h⟩

end Clients

abbrev Linearization (spec : Spec Op Reply State) (start : State)
    (history : History Op Reply) : Prop :=
  ∃ order, Linearizes spec start history order

/-- How far a thread has come, told by the history and the order so far.  A
step of a thread may put operations into the order as long as the stages of the
other threads stay true. -/
structure Staging (spec : Spec Op Reply State) (start : State)
    (script : Op → Script Command Answer Reply)
    (execute : Clients.Executes Command Answer World Choice)
    (admits : Op → Prop) (permits : Choice → Prop) where
  view : World → State
  Stage : History Op Reply → List (Turn Op Reply State) → Nat → Op →
    Option (Script Command Answer Reply) → Prop
  gone : ∀ history order id op, Stage history order id op none
  fresh : ∀ {history order id op}, admits op → id ∉ ids order →
    Stage history order id op (some (script op))
  marked : ∀ {history order id op thread mark},
    (∀ other, mark ≠ .invoked id other) →
    Stage history order id op thread →
    Stage (history ++ [mark]) order id op thread
  call : ∀ {world history order id op command next choice},
    Linearizes spec start history order → view world = stateAfter start order →
    .invoked id op ∈ history → permits choice →
    Stage history order id op (some (.call command next)) →
    ∃ order', Linearizes spec start history order' ∧
      view (execute choice command world).2 = stateAfter start order' ∧
      Stage history order' id op
        (some (next (execute choice command world).1)) ∧
      ∀ id' op' thread, id' ≠ id → Stage history order id' op' thread →
        Stage history order' id' op' thread
  reply : ∀ {history order id op reply},
    Linearizes spec start history order → .invoked id op ∈ history →
    Stage history order id op (some (.done reply)) →
    ∃ order', Linearizes spec start history order' ∧
      stateAfter start order' = stateAfter start order ∧
      (∃ entry ∈ entries order', entry.id = id ∧ entry.reply = reply) ∧
      ∀ id' op' thread, id' ≠ id → Stage history order id' op' thread →
        Stage history order' id' op' thread

namespace Staging

variable {spec : Spec Op Reply State} {start : State}
variable {script : Op → Script Command Answer Reply}
variable {execute : Clients.Executes Command Answer World Choice}
variable {admits : Op → Prop} {permits : Choice → Prop}
variable (staging : Staging spec start script execute admits permits)
variable {sessions after : Clients Op Reply Command Answer World}

structure Holds (sessions : Clients Op Reply Command Answer World)
    (order : List (Turn Op Reply State)) : Prop where
  linearizes : Linearizes spec start sessions.history order
  agrees : staging.view sessions.world = stateAfter start order
  invoked : ∀ id thread, sessions.threads[id]? = some thread →
    .invoked id thread.1 ∈ sessions.history
  started : ∀ id op, .invoked id op ∈ sessions.history →
    id < sessions.threads.length
  stages : ∀ id thread, sessions.threads[id]? = some thread →
    staging.Stage sessions.history order id thread.1 thread.2

variable {staging} {order : List (Turn Op Reply State)}

theorem Holds.fresh_mem (holds : staging.Holds sessions order) :
    sessions.threads.length ∉ ids order := by
  intro hmem
  obtain ⟨entry, hentry, hid⟩ := List.mem_map.mp hmem
  have hlt := holds.started _ _ (holds.linearizes.invoked entry hentry)
  omega

theorem getElem?_concat_cases {α : Type} {threads : List α} {other : Nat}
    {new thread : α} (h : (threads ++ [new])[other]? = some thread) :
    (other = threads.length ∧ thread = new) ∨
      (other < threads.length ∧ threads[other]? = some thread) := by
  rcases Nat.lt_trichotomy other threads.length with hlt | rfl | hgt
  · rw [List.getElem?_append_left hlt] at h
    exact .inr ⟨hlt, h⟩
  · rw [List.getElem?_concat_length] at h
    exact .inl ⟨rfl, (Option.some.inj h).symm⟩
  · have hnone : (threads ++ [new])[other]? = none := by
      apply List.getElem?_eq_none
      rw [List.length_append]
      exact hgt
    rw [hnone] at h
    cases h

theorem Holds.invoke (holds : staging.Holds sessions order) {op : Op}
    (admitted : admits op) :
    staging.Holds { sessions with
      threads := sessions.threads ++ [(op, some (script op))]
      history := sessions.history ++
        [.invoked sessions.threads.length op] } order where
  linearizes := holds.linearizes.invoke holds.fresh_mem
  agrees := holds.agrees
  invoked id thread hthread := by
    obtain ⟨rfl, rfl⟩ | ⟨_, hold⟩ := getElem?_concat_cases hthread
    · exact List.mem_append_right _ (List.mem_singleton_self _)
    · exact List.mem_append_left _ (holds.invoked id thread hold)
  started id other hinvoked := by
    rw [List.length_append]
    rcases List.mem_append.mp hinvoked with hmem | hlast
    · exact Nat.lt_add_right _ (holds.started id other hmem)
    · cases List.mem_singleton.mp hlast
      exact Nat.lt_add_of_pos_right Nat.one_pos
  stages id thread hthread := by
    obtain ⟨rfl, rfl⟩ | ⟨hlt, hold⟩ := getElem?_concat_cases hthread
    · exact staging.fresh admitted holds.fresh_mem
    · apply staging.marked _ (holds.stages id thread hold)
      rintro op heq
      cases heq
      exact absurd hlt (Nat.lt_irrefl _)

theorem Holds.act (holds : staging.Holds sessions order) {id : Nat}
    {choice : Choice} (permitted : permits choice)
    (h : sessions.act execute id choice = some after) :
    ∃ order', staging.Holds after order' := by
  obtain ⟨world, threads, history⟩ := after
  obtain ⟨op, command, next, hthread, rfl, rfl, rfl⟩ |
    ⟨op, reply, hthread, rfl, rfl, rfl⟩ := Clients.act_cases h
  · have hinvoked := holds.invoked id _ hthread
    obtain ⟨order', linearizes, agrees, stage, stable⟩ := staging.call
      holds.linearizes holds.agrees hinvoked permitted
      (holds.stages id _ hthread)
    refine ⟨order', linearizes, agrees, ?_, ?_, ?_⟩
    · intro other thread hother
      obtain ⟨rfl, rfl⟩ | ⟨_, hold⟩ := Clients.getElem?_set_cases hother
      · exact hinvoked
      · exact holds.invoked other thread hold
    · intro other op' hother
      rw [List.length_set]
      exact holds.started other op' hother
    · intro other thread hother
      obtain ⟨rfl, rfl⟩ | ⟨hne, hold⟩ := Clients.getElem?_set_cases hother
      · exact stage
      · exact stable other _ _ hne (holds.stages other thread hold)
  · have hinvoked := holds.invoked id _ hthread
    obtain ⟨order', linearizes, agrees, found, stable⟩ := staging.reply
      holds.linearizes hinvoked (holds.stages id _ hthread)
    refine ⟨order', linearizes.answer found, holds.agrees.trans agrees.symm,
      ?_, ?_, ?_⟩
    · intro other thread hother
      apply List.mem_append_left
      obtain ⟨rfl, rfl⟩ | ⟨_, hold⟩ := Clients.getElem?_set_cases hother
      · exact hinvoked
      · exact holds.invoked other thread hold
    · intro other op' hother
      rw [List.length_set]
      rcases List.mem_append.mp hother with hmem | hlast
      · exact holds.started other op' hmem
      · cases List.mem_singleton.mp hlast
    · intro other thread hother
      apply staging.marked fun _ heq => by cases heq
      obtain ⟨rfl, rfl⟩ | ⟨hne, hold⟩ := Clients.getElem?_set_cases hother
      · exact staging.gone _ _ _ _
      · exact stable other _ _ hne (holds.stages other thread hold)

theorem invoked_eq {script : Op → Script Command Answer Reply}
    {execute : Clients.Executes Command Answer World Choice}
    {allowed : Clients Op Reply Command Answer World → Event Op Choice → Prop}
    {world : World} (reached : Reachable (Clients.step script execute) allowed
      (Clients.empty world) sessions) {id : Nat} {op op' : Op}
    (h : .invoked id op ∈ sessions.history)
    (h' : .invoked id op' ∈ sessions.history) : op = op' := by
  have hthreads : ∀ id op, .invoked id op ∈ sessions.history →
      (sessions.threads[id]?).map Prod.fst = some op := by
    refine reached.invariant (fun sessions => ∀ id op,
      .invoked id op ∈ sessions.history →
        (sessions.threads[id]?).map Prod.fst = some op) ?_ ?_
    · intro id op hinvoked
      cases hinvoked
    · intro before event after hbefore _ stepped id op hinvoked
      cases event with
      | invoke other =>
          cases stepped
          rcases List.mem_append.mp hinvoked with hold | hlast
          · have hmap := hbefore id op hold
            obtain ⟨thread, hthread, -⟩ := Option.map_eq_some_iff.mp hmap
            have hlt := (List.getElem?_eq_some_iff.mp hthread).1
            rw [List.getElem?_append_left hlt]
            exact hmap
          · cases List.mem_singleton.mp hlast
            rw [List.getElem?_concat_length]
            rfl
      | act other choice =>
          obtain ⟨world, threads, history⟩ := after
          have kept : ∀ {op' thread new},
              before.threads[other]? = some (op', thread) →
              (before.threads.set other (op', new))[id]?.map Prod.fst =
                before.threads[id]?.map Prod.fst := by
            intro op' thread new hthread
            rw [List.getElem?_set]
            split
            · rename_i heq
              subst heq
              have hlt := (List.getElem?_eq_some_iff.mp hthread).1
              rw [if_pos hlt, hthread]
              rfl
            · rfl
          obtain ⟨op', command, next, hthread, rfl, rfl, rfl⟩ |
            ⟨op', reply, hthread, rfl, rfl, rfl⟩ := Clients.act_cases stepped
          · exact (kept hthread).trans (hbefore id op hinvoked)
          · refine (kept hthread).trans (hbefore id op ?_)
            rcases List.mem_append.mp hinvoked with hold | hlast
            · exact hold
            · cases List.mem_singleton.mp hlast
  exact Option.some.inj ((hthreads id op h).symm.trans (hthreads id op' h'))

/-- The events of a run in which only such operations are invoked and the
environment chooses as it is permitted. -/
def Allowed (admits : Op → Prop) (permits : Choice → Prop)
    (_ : Clients Op Reply Command Answer World) : Event Op Choice → Prop
  | .invoke op => admits op
  | .act _ choice => permits choice

theorem linearizable (staging : Staging spec start script execute admits permits)
    {world : World} (initially : staging.view world = start)
    (reached : Reachable (Clients.step script execute)
      (Allowed admits permits) (Clients.empty world) sessions) :
    Linearization spec start sessions.history := by
  have holds : ∃ order, staging.Holds sessions order := by
    refine reached.invariant (fun sessions => ∃ order,
      staging.Holds sessions order) ⟨[], ?_⟩ ?_
    · exact {
        linearizes := .nil spec start
        agrees := initially
        invoked := by
          intro id thread hthread
          cases hthread
        started := by
          intro id op hinvoked
          cases hinvoked
        stages := by
          intro id thread hthread
          cases hthread }
    · rintro before event after ⟨order, holds⟩ allowed stepped
      cases event with
      | invoke op =>
          cases stepped
          exact ⟨order, holds.invoke allowed⟩
      | act id choice => exact holds.act allowed stepped
  obtain ⟨order, holds⟩ := holds
  exact ⟨order, holds.linearizes⟩

end Staging

end Linearizable

end TwakeKickstart.Library
