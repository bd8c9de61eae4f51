import Mathlib.Data.List.Basic

namespace TwakeKickstart.Library

/-! Scripts that issue commands to an environment, act on its answers and may
stop before their end.  The environment answers as it likes, looking at all that
went before. -/

inductive Script (Command : Type) (Answer : Command → Type) (α : Type) where
  | done (value : α)
  | exit (status : Nat)
  | call (command : Command) (next : Answer command → Script Command Answer α)

namespace Script

inductive Outcome (α : Type) where
  | done (value : α)
  | exited (status : Nat)

variable {Command : Type} {Answer : Command → Type} {α β ι : Type}

abbrev Entry (Command : Type) (Answer : Command → Type) : Type :=
  (command : Command) × Answer command

abbrev Log (Command : Type) (Answer : Command → Type) : Type :=
  List (Entry Command Answer)

abbrev Environment (Command : Type) (Answer : Command → Type) : Type :=
  Log Command Answer → (command : Command) → Answer command

def run (environment : Environment Command Answer) :
    Script Command Answer α → Log Command Answer →
      Outcome α × Log Command Answer
  | done value, log => (.done value, log)
  | exit status, log => (.exited status, log)
  | call command next, log =>
      (next (environment log command)).run environment
        (log ++ [⟨command, environment log command⟩])

def bind : Script Command Answer α → (α → Script Command Answer β) →
    Script Command Answer β
  | done value, f => f value
  | exit status, _ => exit status
  | call command next, f => call command fun answer => (next answer).bind f

instance : Monad (Script Command Answer) where
  pure := done
  bind := bind

def ask (command : Command) : Script Command Answer (Answer command) :=
  call command done

def forEach (body : ι → Script Command Answer Unit) :
    List ι → Script Command Answer Unit
  | [] => done ()
  | item :: rest => bind (body item) fun _ => forEach body rest

/-- `set -e`: a command that fails stops the script with its status. -/
def setE (status : Nat) : Script Command Answer Unit :=
  if status = 0 then done () else exit status

variable {log : Log Command Answer}

section Run

variable {environment : Environment Command Answer}

theorem exists_run_eq_append (environment : Environment Command Answer)
    (script : Script Command Answer α) (log : Log Command Answer) :
    ∃ later, (script.run environment log).2 = log ++ later := by
  induction script generalizing log with
  | done value => exact ⟨[], (List.append_nil log).symm⟩
  | exit status => exact ⟨[], (List.append_nil log).symm⟩
  | call command next ih =>
      obtain ⟨later, hlater⟩ := ih (environment log command)
        (log ++ [⟨command, environment log command⟩])
      exact ⟨⟨command, environment log command⟩ :: later, by
        rw [run, hlater, List.append_assoc, List.singleton_append]⟩

/-- A run issues nothing more, or its first command with the answer to it, and
then whatever follows from that answer. -/
theorem entry_cases {command : Command}
    {next : Answer command → Script Command Answer α}
    {before after : Log Command Answer} {entry : Entry Command Answer}
    (h : ((call command next).run environment log).2 =
      log ++ before ++ entry :: after) :
    (before = [] ∧ entry = ⟨command, environment log command⟩) ∨
      ∃ rest, before = ⟨command, environment log command⟩ :: rest ∧
        ((next (environment log command)).run environment
          (log ++ [⟨command, environment log command⟩])).2 =
            log ++ [⟨command, environment log command⟩] ++ rest ++
              entry :: after := by
  obtain ⟨later, hlater⟩ := exists_run_eq_append environment
    (next (environment log command))
    (log ++ [⟨command, environment log command⟩])
  rw [run] at h
  have htail := h
  rw [hlater, List.append_assoc, List.append_assoc] at htail
  replace htail := List.append_cancel_left htail
  cases before with
  | nil => exact .inl ⟨rfl, (List.cons.inj htail).1.symm⟩
  | cons first rest =>
      obtain ⟨rfl, _⟩ := List.cons.inj htail
      refine .inr ⟨rest, rfl, ?_⟩
      rw [h]
      simp only [List.append_assoc, List.cons_append, List.nil_append]

/-- Each answer in the log of a run is that of the environment to the log up to
there. -/
theorem answer_eq {script : Script Command Answer α}
    {before after : Log Command Answer} {entry : Entry Command Answer}
    (h : (script.run environment log).2 = log ++ before ++ entry :: after) :
    entry.2 = environment (log ++ before) entry.1 := by
  induction script generalizing log before with
  | done value =>
      have hlength := congrArg List.length h
      simp only [run, List.length_append, List.length_cons] at hlength
      omega
  | exit status =>
      have hlength := congrArg List.length h
      simp only [run, List.length_append, List.length_cons] at hlength
      omega
  | call command next ih =>
      obtain ⟨rfl, rfl⟩ | ⟨rest, rfl, hrest⟩ := entry_cases h
      · rw [List.append_nil]
      · have hanswer := ih (environment log command) hrest
        rw [hanswer, List.append_assoc, List.singleton_append]

theorem answer_eq_of_run {script : Script Command Answer α}
    {before after : Log Command Answer} {entry : Entry Command Answer}
    (h : (script.run environment []).2 = before ++ entry :: after) :
    entry.2 = environment before entry.1 := by
  rw [← List.nil_append before] at h
  exact answer_eq h

end Run

/-- Whatever the answers are, the script issues only commands that are permitted
after the log up to there, and ends as described. -/
def Meets (permits : Log Command Answer → Command → Prop) :
    Script Command Answer α → Log Command Answer →
      (Outcome α → Log Command Answer → Prop) → Prop
  | done value, log, ends => ends (.done value) log
  | exit status, log, ends => ends (.exited status) log
  | call command next, log, ends =>
      permits log command ∧
        ∀ answer, (next answer).Meets permits (log ++ [⟨command, answer⟩]) ends

/-- The end of a script that others follow. -/
def Outcome.andThen (ends : Outcome β → Log Command Answer → Prop)
    (onward : α → Log Command Answer → Prop) :
    Outcome α → Log Command Answer → Prop
  | .done value, log => onward value log
  | .exited status, log => ends (.exited status) log

variable {permits : Log Command Answer → Command → Prop}

@[simp] theorem meets_pure {value : α}
    {ends : Outcome α → Log Command Answer → Prop} :
    (pure value : Script Command Answer α).Meets permits log ends ↔
      ends (.done value) log :=
  Iff.rfl

@[simp] theorem meets_exit {status : Nat}
    {ends : Outcome α → Log Command Answer → Prop} :
    (exit status : Script Command Answer α).Meets permits log ends ↔
      ends (.exited status) log :=
  Iff.rfl

@[simp] theorem meets_ask {command : Command}
    {ends : Outcome (Answer command) → Log Command Answer → Prop} :
    (ask command).Meets permits log ends ↔
      permits log command ∧
        ∀ answer, ends (.done answer) (log ++ [⟨command, answer⟩]) :=
  Iff.rfl

theorem meets_bind {script : Script Command Answer α}
    {f : α → Script Command Answer β}
    {ends : Outcome β → Log Command Answer → Prop} :
    (script >>= f).Meets permits log ends ↔
      script.Meets permits log
        (Outcome.andThen ends fun value log =>
          (f value).Meets permits log ends) := by
  change (script.bind f).Meets permits log ends ↔ _
  induction script generalizing log with
  | done value => rfl
  | exit status => rfl
  | call command next ih =>
      exact and_congr_right fun _ => forall_congr' fun answer => ih answer

theorem Meets.mono {script : Script Command Answer α}
    {ends weaker : Outcome α → Log Command Answer → Prop}
    (meets : script.Meets permits log ends)
    (h : ∀ outcome log, ends outcome log → weaker outcome log) :
    script.Meets permits log weaker := by
  induction script generalizing log with
  | done value => exact h _ _ meets
  | exit status => exact h _ _ meets
  | call command next ih =>
      exact ⟨meets.1, fun answer => ih answer (meets.2 answer)⟩

/-- What holds before the first item, and after each item if it held before it,
holds after the last one. -/
theorem meets_forEach {body : ι → Script Command Answer Unit} {items : List ι}
    {ends : Outcome Unit → Log Command Answer → Prop}
    (holds : List ι → Log Command Answer → Prop)
    (each : ∀ before item after log, items = before ++ item :: after →
      holds before log →
        (body item).Meets permits log
          (Outcome.andThen ends fun _ => holds (before ++ [item])))
    (atEnd : ∀ log, holds items log → ends (.done ()) log)
    (initially : holds [] log) :
    (forEach body items).Meets permits log ends := by
  have general : ∀ rest before log, items = before ++ rest →
      holds before log → (forEach body rest).Meets permits log ends := by
    intro rest
    induction rest with
    | nil =>
        intro before log hitems hbefore
        rw [List.append_nil] at hitems
        exact atEnd log (hitems ▸ hbefore)
    | cons item rest ih =>
        intro before log hitems hbefore
        refine meets_bind.mpr ?_
        refine (each before item rest log hitems hbefore).mono ?_
        rintro (_ | status) log hends
        · refine ih (before ++ [item]) log ?_ hends
          rw [hitems, List.append_assoc, List.singleton_append]
        · exact hends
  exact general items [] log rfl initially

/-- A run of a script ends as described, and each command in its log is
permitted where it stands. -/
theorem Meets.run {script : Script Command Answer α}
    {ends : Outcome α → Log Command Answer → Prop}
    (environment : Environment Command Answer)
    (meets : script.Meets permits log ends) :
    ends (script.run environment log).1 (script.run environment log).2 ∧
      ∀ before entry after,
        (script.run environment log).2 = log ++ before ++ entry :: after →
          permits (log ++ before) entry.1 := by
  induction script generalizing log with
  | done value =>
      refine ⟨meets, fun before entry after h => ?_⟩
      have hlength := congrArg List.length h
      simp only [Script.run, List.length_append, List.length_cons] at hlength
      omega
  | exit status =>
      refine ⟨meets, fun before entry after h => ?_⟩
      have hlength := congrArg List.length h
      simp only [Script.run, List.length_append, List.length_cons] at hlength
      omega
  | call command next ih =>
      obtain ⟨hends, hpermits⟩ := ih (environment log command) (meets.2 _)
      refine ⟨hends, fun before entry after h => ?_⟩
      obtain ⟨rfl, rfl⟩ | ⟨rest, rfl, hrest⟩ := entry_cases h
      · rw [List.append_nil]
        exact meets.1
      · have hpermitted := hpermits rest entry after hrest
        rw [List.append_assoc, List.singleton_append] at hpermitted
        exact hpermitted

/-! Scripts that stop at the first answer of a kind. -/

def Sound (failed : Entry Command Answer → Prop)
    (log : Log Command Answer) : Prop :=
  ∀ entry ∈ log, ¬ failed entry

/-- How a part of a script ends, and what it adds to the log. -/
def Ends (failed : Entry Command Answer → Prop) (log : Log Command Answer)
    (good stopped : Log Command Answer → Prop) :
    Outcome Unit → Log Command Answer → Prop
  | .done _, after =>
      ∃ later, after = log ++ later ∧ Sound failed later ∧ good later
  | .exited status, after =>
      ∃ later, after = log ++ later ∧ status ≠ 0 ∧ stopped later

section Ends

variable {failed : Entry Command Answer → Prop}
variable {good stopped good' stopped' : Log Command Answer → Prop}

theorem sound_nil : Sound failed ([] : Log Command Answer) :=
  fun _ hentry => absurd hentry List.not_mem_nil

theorem Sound.append {log later : Log Command Answer} (hlog : Sound failed log)
    (hlater : Sound failed later) : Sound failed (log ++ later) :=
  List.forall_mem_append.mpr ⟨hlog, hlater⟩

theorem Ends.mono {outcome : Outcome Unit} {after : Log Command Answer}
    (h : Ends failed log good stopped outcome after)
    (hgood : ∀ later, Sound failed later → good later → good' later)
    (hstopped : ∀ later, stopped later → stopped' later) :
    Ends failed log good' stopped' outcome after := by
  cases outcome with
  | done _ =>
      obtain ⟨later, hafter, sound, hlater⟩ := h
      exact ⟨later, hafter, sound, hgood later sound hlater⟩
  | exited status =>
      obtain ⟨later, hafter, hstatus, hlater⟩ := h
      exact ⟨later, hafter, hstatus, hstopped later hlater⟩

theorem ends_done (h : good []) :
    (pure () : Script Command Answer Unit).Meets permits log
      (Ends failed log good stopped) :=
  ⟨[], (List.append_nil log).symm, sound_nil, h⟩

theorem ends_exit {status : Nat} (hstatus : status ≠ 0) (h : stopped []) :
    (exit status : Script Command Answer Unit).Meets permits log
      (Ends failed log good stopped) :=
  ⟨[], (List.append_nil log).symm, hstatus, h⟩

theorem ends_setE {status : Nat} (hgood : status = 0 → good [])
    (hstopped : status ≠ 0 → stopped []) :
    (setE status : Script Command Answer Unit).Meets permits log
      (Ends failed log good stopped) := by
  unfold setE
  split
  · rename_i h
    exact ends_done (hgood h)
  · rename_i h
    exact ends_exit h (hstopped h)

theorem ends_setE_bind {status : Nat}
    {next : Unit → Script Command Answer Unit}
    (hstopped : status ≠ 0 → stopped [])
    (hnext : status = 0 →
      (next ()).Meets permits log (Ends failed log good stopped)) :
    (setE status >>= next).Meets permits log
      (Ends failed log good stopped) := by
  by_cases h : status = 0
  · rw [h]
    exact hnext h
  · rw [setE, if_neg h]
    exact ⟨[], (List.append_nil log).symm, h, hstopped h⟩

theorem ends_ask {command : Command}
    {f : Answer command → Script Command Answer Unit}
    (hpermits : permits log command)
    (h : ∀ answer, (f answer).Meets permits (log ++ [⟨command, answer⟩])
      (Ends failed (log ++ [⟨command, answer⟩])
        (fun later => ¬ failed ⟨command, answer⟩ ∧
          good (⟨command, answer⟩ :: later))
        fun later => stopped (⟨command, answer⟩ :: later))) :
    (ask command >>= f).Meets permits log (Ends failed log good stopped) := by
  refine meets_bind.mpr (meets_ask.mpr ⟨hpermits, fun answer => ?_⟩)
  refine (h answer).mono ?_
  rintro (_ | status) after ⟨later, rfl, hlater⟩
  · refine ⟨⟨command, answer⟩ :: later, ?_, ?_, hlater.2.2⟩
    · rw [List.append_assoc, List.singleton_append]
    · exact List.forall_mem_cons.mpr ⟨hlater.2.1, hlater.1⟩
  · refine ⟨⟨command, answer⟩ :: later, ?_, hlater⟩
    rw [List.append_assoc, List.singleton_append]

theorem ends_bind {first : Script Command Answer Unit}
    {next : Unit → Script Command Answer Unit}
    (hfirst : first.Meets permits log (Ends failed log good stopped))
    (hnext : ∀ later, Sound failed later → good later →
      (next ()).Meets permits (log ++ later)
        (Ends failed (log ++ later) (fun more => good' (later ++ more))
          fun more => stopped' (later ++ more)))
    (hstopped : ∀ later, stopped later → stopped' later) :
    (first >>= next).Meets permits log (Ends failed log good' stopped') := by
  refine meets_bind.mpr (hfirst.mono ?_)
  rintro (_ | status) after ⟨later, rfl, hlater⟩
  · refine (hnext later hlater.1 hlater.2).mono ?_
    rintro (_ | status) after ⟨more, rfl, hmore⟩
    · exact ⟨later ++ more, List.append_assoc log later more,
        hlater.1.append hmore.1, hmore.2⟩
    · exact ⟨later ++ more, List.append_assoc log later more, hmore⟩
  · exact ⟨later, rfl, hlater.1, hstopped later hlater.2⟩

theorem ends_forEach {body : ι → Script Command Answer Unit} {items : List ι}
    (holds : List ι → Log Command Answer → Prop) (initially : holds [] [])
    (each : ∀ before item after later, items = before ++ item :: after →
      Sound failed later → holds before later →
        (body item).Meets permits (log ++ later)
          (Ends failed (log ++ later)
            (fun more => holds (before ++ [item]) (later ++ more))
            fun more => stopped (later ++ more))) :
    (forEach body items).Meets permits log
      (Ends failed log (holds items) stopped) := by
  refine meets_forEach
    (fun before after => ∃ later, after = log ++ later ∧ Sound failed later ∧
      holds before later) ?_ (fun _ h => h)
    ⟨[], (List.append_nil log).symm, sound_nil, initially⟩
  rintro before item after _ hitems ⟨later, rfl, sound, hlater⟩
  refine (each before item after later hitems sound hlater).mono ?_
  rintro (_ | status) after ⟨more, rfl, hmore⟩
  · exact ⟨later ++ more, List.append_assoc log later more,
      sound.append hmore.1, hmore.2⟩
  · exact ⟨later ++ more, List.append_assoc log later more, hmore⟩

end Ends

end Script

end TwakeKickstart.Library
