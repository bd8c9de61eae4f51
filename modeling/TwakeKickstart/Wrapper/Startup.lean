import TwakeKickstart.Wrapper.Run

namespace TwakeKickstart.Wrapper

open Library

/-! Every run of the wrapper, whatever the answers to its commands are. -/

/-- What the repository requires, of those that are run, has been composed and
waited for. -/
def Prepared (reposToRun : List Repo) (repo : Repo) (log : Log) : Prop :=
  ∀ required ∈ reposToRun, Requires repo required → Waited required log

/-- The containers that must be healthy for the repository have been found so. -/
def GatesOpen (repo : Repo) (log : Log) : Prop :=
  ∀ dep ∈ repoDeps repo, ⟨.inspectDep dep, "healthy"⟩ ∈ log

/-- The call of compose for a repository. -/
def Command.IsCompose (action : String) (repo : Repo) (service : String)
    (options : List String) : Command → Prop
  | .composeWrapper other arguments =>
      other = repo ∧ arguments =
        action :: (if service = "" then [] else [service]) ++ options
  | .dockerCompose other arguments =>
      other = repo ∧ arguments =
        "--env-file" :: "../.env" :: action :: options ++
          if service = "" then [] else [service]
  | _ => False

theorem Command.IsCompose.composes {action service : String} {repo : Repo}
    {options : List String} {command : Command}
    (h : command.IsCompose action repo service options) :
    command.composes = some repo := by
  cases command with
  | composeWrapper other arguments => exact congrArg some h.1
  | dockerCompose other arguments => exact congrArg some h.1
  | _ => cases h

structure Allowed (action : String) (request : Request)
    (reposToRun : List Repo) (log : Log) (command : Command) : Prop where
  sound : Script.Sound Failed log
  gate : ∀ dep, command = .inspectDep dep →
    ∃ repo ∈ reposToRun, dep ∈ repoDeps repo ∧ Prepared reposToRun repo log
  compose : ∀ repo, command.composes = some repo →
    repo ∈ reposToRun ∧
      command.IsCompose action repo request.targetService
        request.dockerOptions ∧
      (action = "up" → Prepared reposToRun repo log ∧ GatesOpen repo log)

/-- Only messages come after a failure. -/
def Permits (action : String) (request : Request) (reposToRun : List Repo)
    (log : Log) (command : Command) : Prop :=
  command.reports = true ∨ Allowed action request reposToRun log command

theorem Prepared.append {reposToRun : List Repo} {repo : Repo} {log : Log}
    (prepared : Prepared reposToRun repo log) (later : Log) :
    Prepared reposToRun repo (log ++ later) :=
  fun required hrequired requires =>
    (prepared required hrequired requires).append later

theorem lenient_permits (action : String) (request : Request)
    (reposToRun : List Repo) :
    Lenient (Permits action request reposToRun) where
  plain := by
    intro log command sound hcomposes hdep
    refine .inr ⟨sound, fun dep h => absurd h (hdep dep), fun repo h => ?_⟩
    rw [hcomposes] at h
    cases h
  reports := fun _ _ h => .inl h

section Parts

variable {permits : Log → Command → Prop} {log : Log} {repo : Repo}

theorem checkDep_meets (lenient : Lenient permits) {dep : String}
    (hgate : permits log (.inspectDep dep)) :
    (checkDep repo dep).Meets permits log
      (Script.Ends Failed log
        (fun later => composed later = [] ∧
          ⟨.inspectDep dep, "healthy"⟩ ∈ later)
        fun later => composed later = []) := by
  refine Script.ends_ask hgate fun status => ?_
  by_cases hstatus : status = "healthy"
  · rw [if_pos hstatus]
    refine ends_echo lenient ⟨not_not_intro hstatus, rfl, ?_⟩
    rw [← hstatus]
    exact List.mem_cons_self
  · rw [if_neg hstatus]
    refine Script.ends_ask (lenient.reports _ _ rfl) fun _ => ?_
    exact Script.ends_exit (by decide) rfl

theorem checkDeps_meets (lenient : Lenient permits)
    (sound : Script.Sound Failed log)
    (hgates : ∀ dep ∈ repoDeps repo, ∀ later,
      Script.Sound Failed (log ++ later) →
        permits (log ++ later) (.inspectDep dep)) :
    (checkDeps repo).Meets permits log
      (Script.Ends Failed log
        (fun later => composed later = [] ∧ GatesOpen repo later)
        fun later => composed later = []) := by
  refine Script.ends_forEach
    (fun before later => composed later = [] ∧
      ∀ dep ∈ before, ⟨.inspectDep dep, "healthy"⟩ ∈ later)
    ⟨rfl, fun dep hdep => absurd hdep List.not_mem_nil⟩ ?_
  rintro before dep after later hdeps hlater ⟨hcomposed, hopen⟩
  have hdep : dep ∈ repoDeps repo := by
    rw [hdeps]
    exact List.mem_append_right before List.mem_cons_self
  refine (checkDep_meets lenient (hgates dep hdep later
    (sound.append hlater))).mono fun outcome after h => h.mono ?_ ?_
  · rintro more _ ⟨hmore, hhealthy⟩
    refine ⟨by rw [composed_append, hcomposed, hmore, List.append_nil],
      List.forall_mem_append.mpr ⟨fun other hother => ?_, ?_⟩⟩
    · exact List.mem_append_left more (hopen other hother)
    · exact List.forall_mem_singleton.mpr (List.mem_append_right later hhealthy)
  · intro more hmore
    rw [composed_append, hcomposed, hmore, List.append_nil]

theorem compose_meets (lenient : Lenient permits)
    (sound : Script.Sound Failed log) {action service : String}
    {options : List String}
    (hcompose : ∀ later command, Script.Sound Failed (log ++ later) →
      command.IsCompose action repo service options →
        permits (log ++ later) command) :
    (compose action repo service options).Meets permits log
      (Script.Ends Failed log
        (fun later => ∃ before composing, later = before ++ [composing] ∧
          composed before = [] ∧ composing.1.composes = some repo)
        fun later => composed later = [repo]) := by
  refine Script.ends_ask (lenient.plain log _ sound rfl (by simp))
    fun wrapped => ?_
  have hlooked : Script.Sound Failed
      (log ++ [⟨.hasComposeWrapper repo, wrapped⟩]) := sound_concat _ sound id
  cases wrapped with
  | true =>
      refine Script.ends_ask (hcompose _ _ hlooked ⟨rfl, rfl⟩) fun status => ?_
      refine Script.ends_setE (fun hstatus => ?_) fun _ => rfl
      exact ⟨not_not_intro hstatus, id, [_], _, rfl, rfl, rfl⟩
  | false =>
      refine Script.ends_ask (hcompose _ _ hlooked ⟨rfl, rfl⟩) fun status => ?_
      refine Script.ends_setE (fun hstatus => ?_) fun _ => rfl
      exact ⟨not_not_intro hstatus, id, [_], _, rfl, rfl, rfl⟩

end Parts

section RunRepo

variable {action : String} {request : Request} {reposToRun : List Repo}
variable {repo : Repo} {log : Log}

theorem GatesOpen.append (h : GatesOpen repo log) (later : Log) :
    GatesOpen repo (log ++ later) :=
  fun dep hdep => List.mem_append_left later (h dep hdep)

theorem gates_meet (sound : Script.Sound Failed log)
    (hmem : repo ∈ reposToRun)
    (prepared : action = "up" → Prepared reposToRun repo log) :
    (if action = "up" then checkDeps repo else pure () : Wrapped).Meets
      (Permits action request reposToRun) log
      (Script.Ends Failed log
        (fun later => composed later = [] ∧
          (action = "up" → GatesOpen repo later))
        fun later => composed later = []) := by
  by_cases haction : action = "up"
  · rw [if_pos haction]
    refine (checkDeps_meets (lenient_permits action request reposToRun) sound
      fun dep hdep later hlater => .inr ⟨hlater, fun other hother => ?_,
        fun other hother => ?_⟩).mono fun outcome after h => h.mono ?_ ?_
    · cases hother
      exact ⟨repo, hmem, hdep, (prepared haction).append later⟩
    · cases hother
    · exact fun later _ h => ⟨h.1, fun _ => h.2⟩
    · exact fun later h => h
  · rw [if_neg haction]
    exact Script.ends_done ⟨rfl, fun h => absurd h haction⟩

theorem permits_compose (hmem : repo ∈ reposToRun)
    (ready : action = "up" → Prepared reposToRun repo log ∧ GatesOpen repo log)
    (later : Log) (command : Command)
    (sound : Script.Sound Failed (log ++ later))
    (hcommand : command.IsCompose action repo request.targetService
      request.dockerOptions) :
    Permits action request reposToRun (log ++ later) command := by
  refine .inr ⟨sound, ?_, ?_⟩
  · rintro dep rfl
    cases hcommand
  · intro other hother
    rw [hcommand.composes] at hother
    cases hother
    exact ⟨hmem, hcommand, fun haction =>
      ⟨(ready haction).1.append later, (ready haction).2.append later⟩⟩

theorem wait_meets (sound : Script.Sound Failed log) :
    (if action = "up" then waitForRepoHealth repo else pure () : Wrapped).Meets
      (Permits action request reposToRun) log
      (Script.Ends Failed log
        (fun later => composed later = [] ∧
          (action = "up" → ∃ earlier containers after,
            later = earlier ++ ⟨.composePs repo, (0, containers)⟩ :: after ∧
            ∀ container ∈ containers, ∃ entry ∈ after,
              Settles container entry))
        fun later => composed later = []) := by
  by_cases haction : action = "up"
  · rw [if_pos haction]
    refine (waitForRepoHealth_meets (lenient_permits action request reposToRun) sound
      repo).mono fun outcome after h => h.mono ?_ ?_
    · exact fun later _ h => ⟨h.1, fun _ => h.2⟩
    · exact fun later h => h
  · rw [if_neg haction]
    exact Script.ends_done ⟨rfl, fun h => absurd h haction⟩

theorem runRepo_meets (sound : Script.Sound Failed log)
    (hmem : repo ∈ reposToRun)
    (prepared : action = "up" → Prepared reposToRun repo log) :
    (runRepo action repo request.targetService request.dockerOptions).Meets
      (Permits action request reposToRun) log
      (Script.Ends Failed log
        (fun later => composed later = [repo] ∧
          (action = "up" → Waited repo (log ++ later)))
        fun later => composed later = [] ∨ composed later = [repo]) := by
  have lenient := lenient_permits action request reposToRun
  refine Script.ends_ask (lenient.reports _ _ rfl) fun told => ?_
  have htold := sound_concat ⟨.echo _, told⟩ sound id
  refine Script.ends_bind (gates_meet htold hmem fun haction =>
    (prepared haction).append _) ?_ fun later hcomposed => .inl hcomposed
  rintro gates hgates ⟨hnone, hopen⟩
  have hchecked := htold.append hgates
  refine Script.ends_ask (lenient.plain _ _ hchecked rfl (by simp))
    fun status => ?_
  have hgone : composed (gates ++ [⟨.changeDir repo, status⟩]) = [] := by
    rw [composed_append, hnone]
    rfl
  refine Script.ends_setE_bind (fun _ => .inl hgone) fun hstatus => ?_
  have hentered := sound_concat ⟨.changeDir repo, status⟩ hchecked
    (not_not_intro hstatus)
  refine Script.ends_bind (compose_meets lenient hentered
    (permits_compose hmem fun haction => ?_)) ?_ ?_
  · refine ⟨(((prepared haction).append _).append _).append _, ?_⟩
    intro dep hdep
    exact List.mem_append_left _ (List.mem_append_right _ (hopen haction dep hdep))
  · rintro _ hcomposing ⟨before, composing, rfl, hbefore, hcomposes⟩
    have hcomposed : composed (gates ++ ⟨.changeDir repo, status⟩ ::
        (before ++ [composing])) = [repo] := by
      rw [List.append_cons, composed_append, hgone, composed_append, hbefore]
      simp [composed, hcomposes]
    refine (wait_meets (hentered.append hcomposing)).mono
      fun outcome after h => h.mono ?_ ?_
    · rintro later _ ⟨hlater, hwaited⟩
      refine ⟨not_not_intro hstatus, id, ?_, fun haction => ?_⟩
      · change composed (gates ++ ⟨.changeDir repo, status⟩ ::
          (before ++ [composing] ++ later)) = [repo]
        rw [← List.cons_append, ← List.append_assoc, composed_append, hcomposed,
          hlater]
        rfl
      · obtain ⟨earlier, containers, settling, rfl, hsettled⟩ := hwaited haction
        refine ⟨log ++ [⟨.echo _, told⟩] ++ gates ++
          [⟨.changeDir repo, status⟩] ++ before, composing, earlier, containers,
          settling, ?_, hcomposes, ?_, hsettled⟩
        · simp only [List.append_assoc, List.cons_append, List.nil_append]
        · exact hcomposing composing (List.mem_append_right before
            List.mem_cons_self)
    · intro later hlater
      refine .inr ?_
      change composed (gates ++ ⟨.changeDir repo, status⟩ ::
        (before ++ [composing] ++ later)) = [repo]
      rw [← List.cons_append, ← List.append_assoc, composed_append, hcomposed,
        hlater]
      rfl
  · intro later hlater
    refine .inr ?_
    change composed (gates ++ ⟨.changeDir repo, status⟩ :: later) = [repo]
    rw [List.append_cons, composed_append, hgone, hlater]
    rfl

end RunRepo

section Operate

variable {command : String} {request : Request} {reposToRun : List Repo}
variable {log : Log}

theorem announce_meets :
    (if request.selectedApps = [] then pure ()
      else echo ("📦 Selected repos: " ++
        " ".intercalate (reposToRun.map Repo.name)) : Wrapped).Meets
      (Permits command request reposToRun) []
      (Script.Ends Failed [] (fun later => composed later = [])
        fun later => composed later = []) := by
  split
  · exact Script.ends_done rfl
  · exact ends_echo (lenient_permits command request reposToRun) rfl

theorem repos_meet (sound : Script.Sound Failed log)
    (ordered : command = "up" → ∀ before repo after,
      reposToRun = before ++ repo :: after →
        ∀ required ∈ reposToRun, Requires repo required → required ∈ before) :
    (Script.forEach
      (fun repo => runRepo command repo request.targetService
        request.dockerOptions) reposToRun).Meets
      (Permits command request reposToRun) log
      (Script.Ends Failed log (fun later => composed later = reposToRun)
        fun later => composed later <+: reposToRun) := by
  have hloop : (Script.forEach
      (fun repo => runRepo command repo request.targetService
        request.dockerOptions) reposToRun).Meets
      (Permits command request reposToRun) log
      (Script.Ends Failed log
        (fun later => composed later = reposToRun ∧
          (command = "up" → ∀ repo ∈ reposToRun, Waited repo (log ++ later)))
        fun later => composed later <+: reposToRun) := by
    refine Script.ends_forEach
      (fun before later => composed later = before ∧
        (command = "up" → ∀ repo ∈ before, Waited repo (log ++ later)))
      ⟨rfl, fun _ repo hrepo => absurd hrepo List.not_mem_nil⟩ ?_
    rintro before repo rest later hrepos hlater ⟨hcomposed, hwaited⟩
    have hrepo : repo ∈ reposToRun := by
      rw [hrepos]
      exact List.mem_append_right before List.mem_cons_self
    refine (runRepo_meets (sound.append hlater) hrepo
      fun haction required hrequired requires => hwaited haction required
        (ordered haction before repo rest hrepos required hrequired
          requires)).mono fun outcome after h => h.mono ?_ ?_
    · rintro more _ ⟨hmore, hnext⟩
      refine ⟨by rw [composed_append, hcomposed, hmore], fun haction => ?_⟩
      refine List.forall_mem_append.mpr ⟨fun other hother => ?_, ?_⟩
      · rw [← List.append_assoc]
        exact (hwaited haction other hother).append more
      · rw [← List.append_assoc]
        exact List.forall_mem_singleton.mpr (hnext haction)
    · rintro more (hmore | hmore)
      · rw [composed_append, hcomposed, hmore, List.append_nil, hrepos]
        exact List.prefix_append before (repo :: rest)
      · rw [composed_append, hcomposed, hmore, hrepos,
          List.append_cons before repo rest]
        exact List.prefix_append (before ++ [repo]) rest
  exact hloop.mono fun outcome after h => h.mono (fun later _ h => h.1)
    fun later h => h

theorem operate_meets
    (ordered : command = "up" → ∀ before repo after,
      reposToRun = before ++ repo :: after →
        ∀ required ∈ reposToRun, Requires repo required → required ∈ before) :
    (operate command request reposToRun).Meets
      (Permits command request reposToRun) []
      (Script.Ends Failed [] (fun later => composed later = reposToRun)
        fun later => composed later <+: reposToRun) := by
  refine Script.ends_bind announce_meets ?_ fun later hlater => ?_
  · intro announced hannounced hnone
    refine Script.ends_bind (repos_meet hannounced ordered) ?_ ?_
    · intro later _ hcomposed
      refine ends_echo (lenient_permits command request reposToRun) ?_
      rw [composed_append, hnone, List.nil_append, composed_concat_echo]
      exact hcomposed
    · intro later hlater
      rw [composed_append, hnone, List.nil_append]
      exact hlater
  · rw [hlater]
    exact List.nil_prefix

end Operate

section Wrapper

variable {shell : Shell} {program command : String} {args : List String}
variable {request : Request} {reposToRun : List Repo}

theorem wrapper_eq_operate
    (h : invocation shell (command :: args) =
      .operate command request reposToRun) :
    wrapper shell program (command :: args) =
      operate command request reposToRun := by
  rw [wrapper, h]

theorem wrapper_meets (program : String)
    (h : invocation shell (command :: args) =
      .operate command request reposToRun) :
    (wrapper shell program (command :: args)).Meets
      (Permits command request reposToRun) []
      (Script.Ends Failed [] (fun later => composed later = reposToRun)
        fun later => composed later <+: reposToRun) := by
  rw [wrapper_eq_operate h]
  refine operate_meets ?_
  rintro rfl before repo after hsplit required hrequired requires
  obtain ⟨_, rfl, _⟩ := reposToRun_of_invocation h
  have ordered := startOrder_pairwise.sublist (reposToRun_up_sublist request)
  rw [hsplit] at ordered hrequired
  exact mem_before_of_place_lt ordered hrequired requires.place_lt

/-- A run of the wrapper composes its repositories in their order, each once,
and stops at the first failure: it ends well only after the last of them. -/
theorem run_composes
    (h : invocation shell (command :: args) =
      .operate command request reposToRun)
    (environment : Script.Environment Command Answer) :
    let run := (wrapper shell program (command :: args)).run environment []
    (run.1 = .done () →
      composed run.2 = reposToRun ∧ Script.Sound Failed run.2) ∧
    (∀ status, run.1 = .exited status →
      status ≠ 0 ∧ composed run.2 <+: reposToRun) ∧
    ∀ before entry after, run.2 = before ++ entry :: after →
      entry.1.reports = false → Script.Sound Failed before := by
  intro run
  obtain ⟨hends, hpermits⟩ := (wrapper_meets program h).run
    environment
  change Script.Ends Failed [] _ _ run.1 run.2 at hends
  refine ⟨fun hdone => ?_, fun status hexited => ?_, ?_⟩
  · rw [hdone] at hends
    obtain ⟨later, hlater, sound, hcomposed⟩ := hends
    rw [hlater, List.nil_append]
    exact ⟨hcomposed, sound⟩
  · rw [hexited] at hends
    obtain ⟨later, hlater, hstatus, hcomposed⟩ := hends
    rw [hlater, List.nil_append]
    exact ⟨hstatus, hcomposed⟩
  · intro before entry after hsplit hreports
    obtain hreported | allowed := hpermits before entry after hsplit
    · rw [hreports] at hreported
      cases hreported
    · exact allowed.sound

/-- Every command succeeds, and no container is listed. -/
def willing : Script.Environment Command Answer := fun _ command =>
  match command with
  | .echo _ => ()
  | .changeDir _ => (0 : Nat)
  | .hasComposeWrapper repo => repo != .onlyofficeApp
  | .composeWrapper _ _ => (0 : Nat)
  | .dockerCompose _ _ => (0 : Nat)
  | .composePs _ => (0, [])
  | .inspectName _ => ""
  | .inspectHealth _ => (0, "")
  | .probeHealth _ => "healthy"
  | .inspectDep _ => "healthy"
  | .logs _ => ()
  | .sleep _ => ()

theorem run_composes_chat :
    composed ((wrapper tableOrder "./wrapper.sh" ["up", "--chat"]).run willing
      []).2 = [.twakeDb, .twakeAuth, .chatApp] :=
  ((@run_composes tableOrder "./wrapper.sh" "up" ["--chat"]
    (detect tableOrder ["--chat"]) [.twakeDb, .twakeAuth, .chatApp] rfl
    willing).1 rfl).1

/-- Whenever a start composes a repository, everything that it requires has
been composed and waited for, and its containers have been found healthy. -/
theorem run_prepares
    (h : invocation shell ("up" :: args) = .operate "up" request reposToRun)
    (hrepo : ∀ arg ∈ args, repos arg = none)
    (environment : Script.Environment Command Answer) :
    ∀ before entry after,
      ((wrapper shell program ("up" :: args)).run environment []).2 =
        before ++ entry :: after →
      ∀ repo, entry.1.composes = some repo →
        (∀ required, Requires repo required → Waited required before) ∧
          ∀ dep ∈ repoDeps repo, ⟨.inspectDep dep, "healthy"⟩ ∈ before := by
  intro before entry after hsplit repo hcomposes
  obtain ⟨_, hpermits⟩ := (wrapper_meets program h).run environment
  obtain hreported | allowed := hpermits before entry after hsplit
  · rw [Command.not_reports_of_composes hcomposes] at hreported
    cases hreported
  · obtain ⟨hmem, _, hready⟩ := allowed.compose repo hcomposes
    obtain ⟨prepared, hopen⟩ := hready rfl
    refine ⟨fun required requires => prepared required ?_ requires, hopen⟩
    exact mem_up_of_requires h hrepo hmem requires

theorem run_prepares_chat :
    ∃ before entry after,
      ((wrapper tableOrder "./wrapper.sh" ["up", "--chat"]).run willing []).2 =
        before ++ entry :: after ∧
      entry.1.composes = some .chatApp ∧ Waited .twakeAuth before := by
  have hsome : ((wrapper tableOrder "./wrapper.sh" ["up", "--chat"]).run
      willing []).2.any (·.1.composes = some .chatApp) = true := by
    decide
  obtain ⟨entry, hmem, hcomposes⟩ := List.any_eq_true.mp hsome
  obtain ⟨before, after, hsplit⟩ := List.append_of_mem hmem
  have prepared := @run_prepares tableOrder "./wrapper.sh" ["--chat"]
    (detect tableOrder ["--chat"]) [.twakeDb, .twakeAuth, .chatApp] rfl
    (by decide) willing before entry after hsplit .chatApp
    (of_decide_eq_true hcomposes)
  exact ⟨before, entry, after, hsplit, of_decide_eq_true hcomposes,
    prepared.1 .twakeAuth (.single List.mem_cons_self)⟩

end Wrapper

end TwakeKickstart.Wrapper

namespace TwakeKickstart.Wrapper

open Library

/-! Starts in an environment where what has become healthy stays so. -/

/-- The containers with a name and a health check in the compose file of a
repository. -/
def monitored : Repo → List String
  | .twakeDb =>
      ["ldap", "postgres", "visio-valkey", "couchdb", "mongodb", "rabbitmq",
        "cassandra", "minio"]
  | .twakeAuth => ["lemonldap-ng", "ldap-rest", "reverse-proxy", "docker-socket"]
  | .cozyStack => ["cozyt"]
  | .onlyofficeApp => ["onlyoffice-documentserver"]
  | .meetApp => ["visio-livekit", "visio-backend"]
  | .calendarApp => ["tcalendar-side-service"]
  | .chatApp => []
  | .tmailApp => ["opensearch", "tmail-backend"]

/-- Each container that a repository waits for belongs to one that it
requires. -/
theorem exists_monitored {repo : Repo} {dep : String}
    (h : dep ∈ repoDeps repo) :
    ∃ required, Requires repo required ∧ dep ∈ monitored required := by
  have hauth : ∀ repo, Repo.twakeAuth ∈ repoRequires repo →
      Requires repo .twakeAuth ∧ Requires repo .twakeDb := by
    intro repo hrepo
    exact ⟨.single hrepo, .tail (.single hrepo) List.mem_cons_self⟩
  cases repo with
  | twakeDb => cases h
  | twakeAuth => cases h
  | onlyofficeApp =>
      refine ⟨.twakeDb, .single List.mem_cons_self, ?_⟩
      simp only [repoDeps, List.mem_cons, List.not_mem_nil, or_false] at h
      obtain rfl | rfl := h <;> decide
  | calendarApp =>
      obtain ⟨requiresAuth, requiresDb⟩ :=
        hauth .calendarApp List.mem_cons_self
      simp only [repoDeps, List.mem_cons, List.not_mem_nil, or_false] at h
      obtain rfl | rfl | rfl := h
      · exact ⟨.twakeAuth, requiresAuth, by decide⟩
      · exact ⟨.twakeDb, requiresDb, by decide⟩
      · exact ⟨.twakeDb, requiresDb, by decide⟩
  | _ =>
      refine ⟨.twakeAuth, .single List.mem_cons_self, ?_⟩
      simp only [repoDeps, List.mem_cons, List.not_mem_nil, or_false] at h
      rw [h]
      decide

theorem not_patcher_of_dep {repo : Repo} {dep : String}
    (h : dep ∈ repoDeps repo) : isPatcher dep = false := by
  cases repo <;>
    simp only [repoDeps, List.mem_cons, List.not_mem_nil, or_false] at h
  all_goals first | subst h; decide | (obtain rfl | rfl := h <;> decide) |
    (obtain rfl | rfl | rfl := h <;> decide)

/-- A start of every service of a repository that succeeded. -/
def StartsAll (repo : Repo) (options : List String) : Entry → Prop
  | ⟨.composeWrapper other arguments, status⟩ =>
      other = repo ∧ arguments = "up" :: options ∧ (status : Nat) = 0
  | ⟨.dockerCompose other arguments, status⟩ =>
      other = repo ∧ (status : Nat) = 0 ∧
        arguments = "--env-file" :: "../.env" :: "up" :: options
  | _ => False

/-- Docker, as long as the containers of the stack neither disappear nor turn
unhealthy: `nameOf` gives the name of each container. -/
structure Steady (nameOf : String → String)
    (docker : Script.Environment Command Answer) : Prop where
  named : ∀ log container,
    docker log (.inspectName container) = nameOf container
  listed : ∀ log repo options, (∃ entry ∈ log, StartsAll repo options entry) →
    ∀ name ∈ monitored repo,
      ∃ container ∈ (docker log (.composePs repo)).2, nameOf container = name
  checked : ∀ log container repo, nameOf container ∈ monitored repo →
    (docker log (.inspectHealth container)).1 = 0 →
      (docker log (.inspectHealth container)).2 ≠ ""
  stays : ∀ log container, ⟨.probeHealth container, "healthy"⟩ ∈ log →
    docker log (.inspectDep (nameOf container)) = "healthy"

section Steady

variable {shell : Shell} {program : String} {args : List String}
variable {request : Request} {reposToRun : List Repo}
variable {nameOf : String → String}
variable {docker : Script.Environment Command Answer}

theorem startsAll_of_isCompose {repo : Repo} {options : List String}
    {entry : Entry} (h : entry.1.IsCompose "up" repo "" options)
    (hfailed : ¬ Failed entry) : StartsAll repo options entry := by
  obtain ⟨command, answer⟩ := entry
  cases command with
  | composeWrapper other arguments =>
      exact ⟨h.1, h.2, not_not.mp hfailed⟩
  | dockerCompose other arguments =>
      refine ⟨h.1, not_not.mp hfailed, h.2.trans ?_⟩
      rw [if_pos rfl, List.append_nil]
  | _ => cases h

theorem healthy_of_waited {script : Wrapped} {before later : Log}
    (steady : Steady nameOf docker)
    (hrun : (script.run docker []).2 = before ++ later)
    (sound : Script.Sound Failed before) {required : Repo}
    (options : List String) {dep : String} (hmonitored : dep ∈ monitored required)
    (hpatcher : isPatcher dep = false) (waited : Waited required before)
    (hcompose : ∀ earlier entry rest, before = earlier ++ entry :: rest →
      entry.1.composes = some required →
        entry.1.IsCompose "up" required "" options) :
    docker before (.inspectDep dep) = "healthy" := by
  have answered : ∀ {earlier : Log} {entry : Entry} {rest : Log},
      before = earlier ++ entry :: rest → entry.2 = docker earlier entry.1 := by
    rintro earlier entry rest rfl
    rw [List.append_assoc, List.cons_append] at hrun
    exact Script.answer_eq_of_run hrun
  obtain ⟨first, composing, between, containers, after, hsplit, hcomposes,
    hsucceeded, hsettled⟩ := waited
  have hstarts : StartsAll required options composing := by
    refine startsAll_of_isCompose (hcompose first composing
      (between ++ ⟨.composePs required, (0, containers)⟩ :: after) ?_ hcomposes)
      hsucceeded
    rw [hsplit, List.append_assoc, List.cons_append]
  have hlisting : (0, containers) =
      docker (first ++ composing :: between) (.composePs required) :=
    answered hsplit
  have hmember : composing ∈ first ++ composing :: between :=
    List.mem_append_right first List.mem_cons_self
  obtain ⟨container, hcontainer, rfl⟩ := steady.listed _ required options
    ⟨composing, hmember, hstarts⟩ dep hmonitored
  rw [← hlisting] at hcontainer
  obtain ⟨entry, hentry, hsettles⟩ := hsettled container hcontainer
  have hbefore : entry ∈ before := by
    rw [hsplit]
    exact List.mem_append_right _ (List.mem_cons_of_mem _ hentry)
  obtain ⟨earlier, rest, hplace⟩ := List.append_of_mem hbefore
  have hanswer := answered hplace
  obtain ⟨command, answer⟩ := entry
  cases command with
  | inspectName other =>
      obtain ⟨rfl, hname⟩ := hsettles
      rw [show answer = nameOf other from hanswer.trans (steady.named _ other),
        hpatcher] at hname
      cases hname
  | inspectHealth other =>
      obtain ⟨rfl, hhealth⟩ := hsettles
      have hstatus : ¬ answer.1 ≠ 0 := sound _ hbefore
      rw [show answer = docker earlier (.inspectHealth other) from hanswer]
        at hhealth hstatus
      exact absurd hhealth
        (steady.checked earlier other required hmonitored (not_not.mp hstatus))
  | probeHealth other =>
      obtain ⟨rfl, hhealthy⟩ := hsettles
      refine steady.stays before other ?_
      rw [← show answer = "healthy" from hhealthy]
      exact hbefore
  | _ => cases hsettles

/-- No start is refused for a dependency, in whichever state the stack was
before: what the repositories wait for is always brought up ahead of them. -/
theorem gates_open
    (h : invocation shell ("up" :: args) = .operate "up" request reposToRun)
    (hrepo : ∀ arg ∈ args, repos arg = none)
    (hservice : request.targetService = "")
    (steady : Steady nameOf docker) :
    ∀ dep status, ⟨.inspectDep dep, status⟩ ∈
        ((wrapper shell program ("up" :: args)).run docker []).2 →
      status = "healthy" := by
  intro dep status hmem
  obtain ⟨_, hpermits⟩ := (wrapper_meets program h).run docker
  obtain ⟨before, after, hsplit⟩ := List.append_of_mem hmem
  obtain hreported | allowed := hpermits before _ after hsplit
  · cases hreported
  · obtain ⟨repo, hrun, hdep, prepared⟩ := allowed.gate dep rfl
    obtain ⟨required, requires, hmonitored⟩ := exists_monitored hdep
    have waited := prepared required
      (mem_up_of_requires h hrepo hrun requires) requires
    have hanswer : status = docker before (.inspectDep dep) :=
      Script.answer_eq_of_run hsplit
    rw [hanswer]
    refine healthy_of_waited steady hsplit allowed.sound request.dockerOptions
      hmonitored (not_patcher_of_dep hdep) waited ?_
    rintro earlier entry rest rfl hcomposes
    rw [List.append_assoc, List.cons_append] at hsplit
    obtain hreported | allowed := hpermits earlier entry _ hsplit
    · rw [Command.not_reports_of_composes hcomposes] at hreported
      cases hreported
    · rw [← hservice]
      exact (allowed.compose required hcomposes).2.1

/-- A stack in which everything has come up. -/
def healthyStack : Script.Environment Command Answer := fun _ command =>
  match command with
  | .echo _ => ()
  | .changeDir _ => (0 : Nat)
  | .hasComposeWrapper repo => repo != .onlyofficeApp
  | .composeWrapper _ _ => (0 : Nat)
  | .dockerCompose _ _ => (0 : Nat)
  | .composePs repo => (0, monitored repo)
  | .inspectName container => container
  | .inspectHealth _ => (0, "healthy")
  | .probeHealth _ => "healthy"
  | .inspectDep _ => "healthy"
  | .logs _ => ()
  | .sleep _ => ()

theorem steady_healthyStack : Steady id healthyStack where
  named := fun _ _ => rfl
  listed := fun _ _ _ _ name hname => ⟨name, hname, rfl⟩
  checked := by
    intro log container repo _ _ hhealth
    have hne : "healthy" ≠ "" := by decide
    exact hne hhealth
  stays := fun _ _ _ => rfl

theorem gates_open_calendar :
    ¬ ∃ dep, ⟨.inspectDep dep, "unhealthy"⟩ ∈
        ((wrapper tableOrder "./wrapper.sh" ["up", "--calendar", "-d"]).run
          healthyStack []).2 := by
  rintro ⟨dep, hmem⟩
  have hhealthy := @gates_open tableOrder "./wrapper.sh" ["--calendar", "-d"]
    (detect tableOrder ["--calendar", "-d"])
    [.twakeDb, .twakeAuth, .calendarApp] id healthyStack rfl (by decide) rfl
    steady_healthyStack dep _ hmem
  exact absurd hhealthy (by decide)

end Steady

end TwakeKickstart.Wrapper
