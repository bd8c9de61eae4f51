import TwakeKickstart.Library.Script
import TwakeKickstart.Wrapper.Selection

namespace TwakeKickstart.Wrapper

open Library

/-! The commands that the wrapper runs, and the order in which it runs them. -/

inductive Command where
  | echo (text : String)
  | changeDir (repo : Repo)
  | hasComposeWrapper (repo : Repo)
  | composeWrapper (repo : Repo) (arguments : List String)
  | dockerCompose (repo : Repo) (arguments : List String)
  | composePs (repo : Repo)
  | inspectName (container : String)
  | inspectHealth (container : String)
  | probeHealth (container : String)
  | inspectDep (name : String)
  | logs (container : String)
  | sleep (seconds : Nat)

/-- The statuses on which the script depends, and the texts it reads. -/
abbrev Answer : Command → Type
  | .echo _ => Unit
  | .changeDir _ => Nat
  | .hasComposeWrapper _ => Bool
  | .composeWrapper _ _ => Nat
  | .dockerCompose _ _ => Nat
  | .composePs _ => Nat × List String
  | .inspectName _ => String
  | .inspectHealth _ => Nat × String
  | .probeHealth _ => String
  | .inspectDep _ => String
  | .logs _ => Unit
  | .sleep _ => Unit

abbrev Wrapped : Type := Script Command Answer Unit

abbrev ask (command : Command) : Script Command Answer (Answer command) :=
  Script.ask command

abbrev echo (text : String) : Wrapped := ask (.echo text)

def maxAttempts : Nat := 40

def isPatcher (name : String) : Bool :=
  "patcher-".toList.isPrefixOf name.toList

/-- The loop that waits for one container; so many attempts are left after the
one that is made. -/
def untilHealthy (container name : String) : Nat → Wrapped
  | 0 => do
      let status ← ask (.probeHealth container)
      if status = "healthy" then pure ()
      else do
        echo ("❌ Timeout waiting for '" ++ name ++ "' to become healthy")
        ask (.logs container)
        .exit 1
  | left + 1 => do
      let status ← ask (.probeHealth container)
      if status = "healthy" then pure ()
      else do
        ask (.sleep 3)
        untilHealthy container name left

def waitForContainer (container : String) : Wrapped := do
  let name ← ask (.inspectName container)
  if isPatcher name then
    echo ("ℹ️ Skipping patcher container '" ++ name ++ "'")
  else do
    let inspected ← ask (.inspectHealth container)
    .setE inspected.1
    if inspected.2 = "" then
      echo ("ℹ️ Container '" ++ name ++ "' has no healthcheck, skipping...")
    else do
      echo ("⏳ Waiting for container '" ++ name ++ "'...")
      untilHealthy container name (maxAttempts - 1)
      echo ("✅ '" ++ name ++ "' is healthy!")

def waitForRepoHealth (repo : Repo) : Wrapped := do
  echo ("⏳ Waiting for all containers in repo '" ++ repo.name ++
    "' to be healthy...")
  let containers ← ask (.composePs repo)
  .setE containers.1
  if containers.2 = [] then
    echo ("⚠️ No containers found for " ++ repo.name)
  else Script.forEach waitForContainer containers.2

def checkDep (repo : Repo) (dep : String) : Wrapped := do
  let status ← ask (.inspectDep dep)
  if status = "healthy" then echo ("✅ Dependency '" ++ dep ++ "' is healthy")
  else do
    echo ("❌ Dependency '" ++ dep ++ "' is not healthy (status: " ++
      (if status = "" then "not found" else status) ++ "). Cannot start '" ++
      repo.name ++ "'.")
    .exit 1

def checkDeps (repo : Repo) : Wrapped :=
  Script.forEach (checkDep repo) (repoDeps repo)

/-- The service comes before the options for a wrapper of the repository's own,
and after them otherwise. -/
def compose (action : String) (repo : Repo) (service : String)
    (options : List String) : Wrapped := do
  let wrapped ← ask (.hasComposeWrapper repo)
  let named := if service = "" then [] else [service]
  let status ←
    if wrapped then
      ask (.composeWrapper repo (action :: named ++ options))
    else
      ask (.dockerCompose repo
        ("--env-file" :: "../.env" :: action :: options ++ named))
  .setE status

def runRepo (action : String) (repo : Repo) (service : String)
    (options : List String) : Wrapped := do
  echo ("🚀 " ++ action ++ " '" ++ repo.name ++ "' " ++
    (if service = "" then "" else "service '" ++ service ++ "'") ++ " ...")
  (if action = "up" then checkDeps repo else pure ())
  let status ← ask (.changeDir repo)
  .setE status
  compose action repo service options
  (if action = "up" then waitForRepoHealth repo else pure ())

def showHelp (program : String) : Wrapped :=
  Script.forEach echo [
    "Usage: " ++ program ++
      " <up|down> [repo] [service] [app flags] [docker-compose options]",
    "",
    "App flags (start only the selected apps, infra pulled in automatically):",
    "  --mail --chat --drive --meet --calendar --office",
    "  --full                          All apps (equivalent to listing every flag)",
    "",
    "Examples:",
    "  " ++ program ++ " up -d                        Start all repos in order",
    "  " ++ program ++ " up twake_db                  Start only the twake_db repo",
    "  " ++ program ++ " up twake_auth lemonldap      " ++
      "Start only the lemonldap service in twake_auth",
    "  " ++ program ++ " up --mail --chat -d          " ++
      "Start mail + chat and their dependencies",
    "  " ++ program ++ " up --full -d                 Start every app",
    "  " ++ program ++ " down                         Stop all repos in reverse order",
    "  " ++ program ++ " down cozy_stack              Stop only cozy_stack",
    "  " ++ program ++ " down --chat                  " ++
      "Stop chat only (shared infra left running)"]

def operate (command : String) (request : Request) (reposToRun : List Repo) :
    Wrapped := do
  (if request.selectedApps = [] then pure ()
    else echo ("📦 Selected repos: " ++
      " ".intercalate (reposToRun.map Repo.name)))
  Script.forEach
    (fun repo => runRepo command repo request.targetService
      request.dockerOptions)
    reposToRun
  echo "✅ Done!"

def wrapper (shell : Shell) (program : String) (args : List String) :
    Wrapped :=
  match invocation shell args with
  | .help status => do
      showHelp program
      .exit status
  | .refused message => do
      echo message
      .exit 1
  | .stopped status => .exit status
  | .operate command request reposToRun => operate command request reposToRun

end TwakeKickstart.Wrapper

namespace TwakeKickstart.Wrapper

open Library

/-! What the log of a run shows: which repositories were composed, what failed,
and which containers were waited for. -/

abbrev Entry : Type := Script.Entry Command Answer

abbrev Log : Type := Script.Log Command Answer

def Command.composes : Command → Option Repo
  | .composeWrapper repo _ => some repo
  | .dockerCompose repo _ => some repo
  | _ => none

/-- The commands that only report. -/
def Command.reports : Command → Bool
  | .echo _ => true
  | .logs _ => true
  | _ => false

theorem Command.not_reports_of_composes {command : Command} {repo : Repo}
    (h : command.composes = some repo) : command.reports = false := by
  cases command with
  | echo text => cases h
  | logs container => cases h
  | _ => rfl

def composed (log : Log) : List Repo :=
  log.filterMap fun entry => entry.1.composes

@[simp] theorem composed_append (log later : Log) :
    composed (log ++ later) = composed log ++ composed later :=
  List.filterMap_append

theorem composed_concat_echo (log : Log) {text : String} :
    composed (log ++ [⟨.echo text, ()⟩]) = composed log := by
  rw [composed_append]
  exact List.append_nil (composed log)

/-- The answers at which the script stops. -/
def Failed : Entry → Prop
  | ⟨.changeDir _, status⟩ => (status : Nat) ≠ 0
  | ⟨.composeWrapper _ _, status⟩ => (status : Nat) ≠ 0
  | ⟨.dockerCompose _ _, status⟩ => (status : Nat) ≠ 0
  | ⟨.composePs _, listed⟩ => listed.1 ≠ 0
  | ⟨.inspectHealth _, inspected⟩ => inspected.1 ≠ 0
  | ⟨.inspectDep _, status⟩ => (status : String) ≠ "healthy"
  | _ => False

/-- The answers by which the wait for one container is over. -/
def Settles (container : String) : Entry → Prop
  | ⟨.inspectName c, name⟩ => c = container ∧ isPatcher name = true
  | ⟨.inspectHealth c, inspected⟩ => c = container ∧ inspected.2 = ""
  | ⟨.probeHealth c, status⟩ => c = container ∧ (status : String) = "healthy"
  | _ => False

/-- The repository was composed, its containers were listed after that, and the
wait for each of them came to its end. -/
def Waited (repo : Repo) (log : Log) : Prop :=
  ∃ before composing between containers after,
    log = before ++ composing :: between ++
      ⟨.composePs repo, (0, containers)⟩ :: after ∧
    composing.1.composes = some repo ∧ ¬ Failed composing ∧
    ∀ container ∈ containers, ∃ entry ∈ after, Settles container entry

theorem Waited.append {repo : Repo} {log : Log} (waited : Waited repo log)
    (later : Log) : Waited repo (log ++ later) := by
  obtain ⟨before, composing, between, containers, after, rfl, hcomposes,
    hfailed, hsettled⟩ := waited
  refine ⟨before, composing, between, containers, after ++ later, ?_,
    hcomposes, hfailed, fun container hcontainer => ?_⟩
  · simp only [List.append_assoc, List.cons_append]
  · obtain ⟨entry, hentry, hsettles⟩ := hsettled container hcontainer
    exact ⟨entry, List.mem_append_left later hentry, hsettles⟩

/-- What a part of the script may do that composes nothing and checks no
dependency. -/
structure Lenient (permits : Log → Command → Prop) : Prop where
  plain : ∀ log command, Script.Sound Failed log → command.composes = none →
    (∀ dep, command ≠ .inspectDep dep) → permits log command
  reports : ∀ log command, command.reports = true → permits log command

section Parts

variable {permits : Log → Command → Prop} {log : Log}
variable {good stopped : Log → Prop}

theorem sound_concat (entry : Entry) (sound : Script.Sound Failed log)
    (h : ¬ Failed entry) : Script.Sound Failed (log ++ [entry]) :=
  sound.append (List.forall_mem_singleton.mpr h)

theorem ends_echo (lenient : Lenient permits) {text : String}
    (h : good [⟨.echo text, ()⟩]) :
    (echo text).Meets permits log (Script.Ends Failed log good stopped) := by
  refine Script.meets_ask.mpr ⟨lenient.reports log _ rfl, fun _ => ?_⟩
  exact ⟨[⟨.echo text, ()⟩], rfl, List.forall_mem_singleton.mpr id, h⟩

theorem untilHealthy_meets (lenient : Lenient permits)
    (sound : Script.Sound Failed log) (container name : String) (left : Nat) :
    (untilHealthy container name left).Meets permits log
      (Script.Ends Failed log
        (fun later => composed later = [] ∧
          ∃ entry ∈ later, Settles container entry)
        fun later => composed later = []) := by
  induction left generalizing log with
  | zero =>
      refine Script.ends_ask (lenient.plain log _ sound rfl (by simp))
        fun status => ?_
      by_cases hstatus : status = "healthy"
      · rw [if_pos hstatus]
        exact Script.ends_done ⟨id, rfl, _, List.mem_cons_self, rfl, hstatus⟩
      · rw [if_neg hstatus]
        refine Script.ends_ask (lenient.reports _ _ rfl) fun _ => ?_
        refine Script.ends_ask (lenient.reports _ _ rfl) fun _ => ?_
        exact Script.ends_exit (by decide) rfl
  | succ left ih =>
      refine Script.ends_ask (lenient.plain log _ sound rfl (by simp))
        fun status => ?_
      by_cases hstatus : status = "healthy"
      · rw [if_pos hstatus]
        exact Script.ends_done ⟨id, rfl, _, List.mem_cons_self, rfl, hstatus⟩
      · rw [if_neg hstatus]
        have hprobed := sound_concat ⟨.probeHealth container, status⟩ sound id
        refine Script.ends_ask (lenient.plain _ _ hprobed rfl (by simp))
          fun slept => ?_
        refine (ih (sound_concat ⟨.sleep 3, slept⟩ hprobed id)).mono
          fun outcome after h => h.mono ?_ ?_
        · rintro later _ ⟨hcomposed, entry, hentry, hsettles⟩
          exact ⟨id, id, hcomposed, entry,
            List.mem_cons_of_mem _ (List.mem_cons_of_mem _ hentry), hsettles⟩
        · exact fun later hcomposed => hcomposed

theorem waitForContainer_meets (lenient : Lenient permits)
    (sound : Script.Sound Failed log) (container : String) :
    (waitForContainer container).Meets permits log
      (Script.Ends Failed log
        (fun later => composed later = [] ∧
          ∃ entry ∈ later, Settles container entry)
        fun later => composed later = []) := by
  refine Script.ends_ask (lenient.plain log _ sound rfl (by simp))
    fun name => ?_
  by_cases hname : isPatcher name = true
  · rw [if_pos hname]
    exact ends_echo lenient ⟨id, rfl, _, List.mem_cons_self, rfl, hname⟩
  · rw [if_neg hname]
    have hnamed := sound_concat ⟨.inspectName container, name⟩ sound id
    refine Script.ends_ask (lenient.plain _ _ hnamed rfl (by simp))
      fun inspected => ?_
    refine Script.ends_setE_bind (fun _ => rfl) fun hstatus => ?_
    have hsucceeded : ¬ Failed ⟨.inspectHealth container, inspected⟩ :=
      not_not_intro hstatus
    have hinspected := sound_concat _ hnamed hsucceeded
    by_cases hhealth : inspected.2 = ""
    · rw [if_pos hhealth]
      exact ends_echo lenient ⟨hsucceeded, id, rfl, _,
        List.mem_cons_of_mem _ List.mem_cons_self, rfl, hhealth⟩
    · rw [if_neg hhealth]
      refine Script.ends_ask (lenient.reports _ _ rfl) fun told => ?_
      have htold := sound_concat ⟨.echo _, told⟩ hinspected id
      refine Script.ends_bind
        (untilHealthy_meets lenient htold container name (maxAttempts - 1))
        ?_ fun later hcomposed => hcomposed
      rintro later _ ⟨hcomposed, entry, hentry, hsettles⟩
      refine ends_echo lenient ⟨id, hsucceeded, id, ?_, entry, ?_, hsettles⟩
      · exact (composed_concat_echo later).trans hcomposed
      · refine List.mem_cons_of_mem _ (List.mem_cons_of_mem _
          (List.mem_cons_of_mem _ (List.mem_append_left _ hentry)))

theorem waitForContainers_meets (lenient : Lenient permits)
    (sound : Script.Sound Failed log) (containers : List String) :
    (Script.forEach waitForContainer containers).Meets permits log
      (Script.Ends Failed log
        (fun later => composed later = [] ∧
          ∀ container ∈ containers, ∃ entry ∈ later, Settles container entry)
        fun later => composed later = []) := by
  refine Script.ends_forEach
    (fun before later => composed later = [] ∧
      ∀ container ∈ before, ∃ entry ∈ later, Settles container entry)
    ⟨rfl, fun container hcontainer => absurd hcontainer List.not_mem_nil⟩ ?_
  rintro before container rest later _ hlater ⟨hcomposed, hsettled⟩
  refine (waitForContainer_meets lenient (sound.append hlater)
    container).mono fun outcome after h => h.mono ?_ ?_
  · rintro more _ ⟨hmore, entry, hentry, hsettles⟩
    refine ⟨by rw [composed_append, hcomposed, hmore, List.append_nil],
      List.forall_mem_append.mpr ⟨fun other hother => ?_, ?_⟩⟩
    · obtain ⟨found, hfound, hfoundSettles⟩ := hsettled other hother
      exact ⟨found, List.mem_append_left more hfound, hfoundSettles⟩
    · exact List.forall_mem_singleton.mpr
        ⟨entry, List.mem_append_right later hentry, hsettles⟩
  · intro more hmore
    rw [composed_append, hcomposed, hmore, List.append_nil]

/-- The wait for the containers of a repository: they are listed, and the wait
for each of them comes to its end. -/
theorem waitForRepoHealth_meets (lenient : Lenient permits)
    (sound : Script.Sound Failed log) (repo : Repo) :
    (waitForRepoHealth repo).Meets permits log
      (Script.Ends Failed log
        (fun later => composed later = [] ∧
          ∃ earlier containers after,
            later = earlier ++ ⟨.composePs repo, (0, containers)⟩ :: after ∧
            ∀ container ∈ containers, ∃ entry ∈ after,
              Settles container entry)
        fun later => composed later = []) := by
  refine Script.ends_ask (lenient.reports _ _ rfl) fun told => ?_
  have htold := sound_concat ⟨.echo _, told⟩ sound id
  refine Script.ends_ask (lenient.plain _ _ htold rfl (by simp))
    fun containers => ?_
  refine Script.ends_setE_bind (fun _ => rfl) fun hstatus => ?_
  have hsucceeded : ¬ Failed ⟨.composePs repo, containers⟩ :=
    not_not_intro hstatus
  have hlisted := sound_concat _ htold hsucceeded
  have hpair : containers = (0, containers.2) := Prod.ext hstatus rfl
  by_cases hnone : containers.2 = []
  · rw [if_pos hnone]
    refine ends_echo lenient ⟨hsucceeded, id, rfl, [⟨.echo _, told⟩],
      containers.2,
      [⟨.echo ("⚠️ No containers found for " ++ repo.name), ()⟩], ?_, ?_⟩
    · rw [← hpair]
      rfl
    · rw [hnone]
      exact fun container hcontainer => absurd hcontainer List.not_mem_nil
  · rw [if_neg hnone]
    refine (waitForContainers_meets lenient hlisted containers.2).mono
      fun outcome after h => h.mono ?_ ?_
    · rintro later _ ⟨hcomposed, hsettled⟩
      refine ⟨hsucceeded, id, hcomposed, [⟨.echo _, told⟩], containers.2, later,
        ?_, hsettled⟩
      rw [← hpair]
      rfl
    · exact fun later hcomposed => hcomposed

end Parts

end TwakeKickstart.Wrapper
