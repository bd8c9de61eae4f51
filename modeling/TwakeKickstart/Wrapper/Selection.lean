import TwakeKickstart.Library.Worklist

namespace TwakeKickstart.Wrapper

open Library

/-! The repositories of the stack, and which of them an invocation of the
wrapper operates on. -/

inductive Repo where
  | twakeDb
  | twakeAuth
  | cozyStack
  | onlyofficeApp
  | meetApp
  | calendarApp
  | chatApp
  | tmailApp
  deriving DecidableEq

def Repo.name : Repo → String
  | .twakeDb => "twake_db"
  | .twakeAuth => "twake_auth"
  | .cozyStack => "cozy_stack"
  | .onlyofficeApp => "onlyoffice_app"
  | .meetApp => "meet_app"
  | .calendarApp => "calendar_app"
  | .chatApp => "chat_app"
  | .tmailApp => "tmail_app"

def startOrder : List Repo :=
  [.twakeDb, .twakeAuth, .cozyStack, .onlyofficeApp, .meetApp, .calendarApp,
    .chatApp, .tmailApp]

def stopOrder : List Repo :=
  [.tmailApp, .chatApp, .calendarApp, .meetApp, .onlyofficeApp, .cozyStack,
    .twakeAuth, .twakeDb]

/-- The repository that is named by an argument. -/
def repos (arg : String) : Option Repo :=
  startOrder.find? fun repo => repo.name = arg

def appFlags : List (String × Repo) :=
  [("--mail", .tmailApp), ("--chat", .chatApp), ("--drive", .cozyStack),
    ("--meet", .meetApp), ("--calendar", .calendarApp),
    ("--office", .onlyofficeApp)]

def repoRequires : Repo → List Repo
  | .twakeDb => []
  | .twakeAuth => [.twakeDb]
  | .cozyStack => [.twakeAuth]
  | .meetApp => [.twakeAuth]
  | .chatApp => [.twakeAuth]
  | .calendarApp => [.twakeAuth]
  | .tmailApp => [.twakeAuth]
  | .onlyofficeApp => [.twakeDb]

/-- The containers that must be healthy before a repository is started. -/
def repoDeps : Repo → List String
  | .twakeDb => []
  | .twakeAuth => []
  | .onlyofficeApp => ["postgres", "rabbitmq"]
  | .chatApp => ["lemonldap-ng"]
  | .cozyStack => ["lemonldap-ng"]
  | .meetApp => ["lemonldap-ng"]
  | .tmailApp => ["lemonldap-ng"]
  | .calendarApp => ["lemonldap-ng", "mongodb", "rabbitmq"]

/-- What the shell leaves open: the order in which it lists the values of the
table of app flags. -/
structure Shell where
  values : List Repo
  perm : values.Perm (appFlags.map Prod.snd)

/-- What has been detected in the arguments. -/
structure Request where
  targetRepo : Option Repo := none
  targetService : String := ""
  dockerOptions : List String := []
  selectedApps : List Repo := []
  full : Bool := false

def Request.detect (shell : Shell) (request : Request) (arg : String) :
    Request :=
  match appFlags.lookup arg with
  | some repo =>
      { request with selectedApps := request.selectedApps ++ [repo] }
  | none =>
      if arg = "--full" then
        { request with
          full := true
          selectedApps := request.selectedApps ++ shell.values }
      else
        match repos arg with
        | some repo => { request with targetRepo := some repo }
        | none =>
            if arg.toList.head? = some '-' then
              { request with dockerOptions := request.dockerOptions ++ [arg] }
            else { request with targetService := arg }

def detect (shell : Shell) (args : List String) : Request :=
  args.foldl (Request.detect shell) {}

/-- Each turn of the loop takes one repository from the queue, and a repository
that is new puts what it requires there. -/
def resolveTurns (selected : List Repo) : Nat :=
  Worklist.turns repoRequires startOrder.toFinset selected []

/-- `seen` has the repositories of `result`. -/
def resolveDeps (selected : List Repo) : Option (List Repo) :=
  Worklist.explore repoRequires (resolveTurns selected) selected []

def Request.reposToRun (command : String) (request : Request) : List Repo :=
  if request.selectedApps ≠ [] then
    if command = "up" then
      let required := (resolveDeps request.selectedApps).getD []
      startOrder.filter fun repo => repo ∈ required
    else
      let required :=
        if request.full then stopOrder else request.selectedApps
      stopOrder.filter fun repo => repo ∈ required
  else
    match request.targetRepo with
    | some repo => [repo]
    | none => if command = "up" then startOrder else stopOrder

inductive Invocation where
  | help (status : Nat)
  | refused (message : String)
  | stopped (status : Nat)
  | operate (command : String) (request : Request) (reposToRun : List Repo)

def invocation (shell : Shell) : List String → Invocation
  | [] => .help 1
  | command :: args =>
      if command = "-h" ∨ command = "--help" then .help 0
      -- An empty text is no subscript of `APP_FLAGS`: bash itself stops.
      else if "" ∈ args then .stopped 1
      else
        let request := detect shell args
        if request.selectedApps ≠ [] ∧ request.targetRepo ≠ none then
          .refused "❌ Cannot combine app flags with a repo name. Pick one."
        else if request.selectedApps ≠ [] ∧ request.targetService ≠ "" then
          .refused "❌ Cannot combine app flags with a service name. Pick one."
        else .operate command request (request.reposToRun command)

theorem mem_startOrder (repo : Repo) : repo ∈ startOrder := by
  cases repo <;> decide

theorem mem_stopOrder (repo : Repo) : repo ∈ stopOrder := by
  cases repo <;> decide

/-- The place of a repository in the order of a start. -/
def place (repo : Repo) : Nat := startOrder.idxOf repo

theorem startOrder_pairwise :
    startOrder.Pairwise fun first second => place first < place second := by
  decide

theorem stopOrder_pairwise :
    stopOrder.Pairwise fun first second => place second < place first := by
  decide

/-- What a repository requires, directly or through others. -/
def Requires : Repo → Repo → Prop :=
  Relation.TransGen fun repo required => required ∈ repoRequires repo

theorem Requires.place_lt {repo required : Repo}
    (requires : Requires repo required) : place required < place repo := by
  have direct : ∀ {repo required : Repo}, required ∈ repoRequires repo →
      place required < place repo := by
    intro repo required h
    cases repo <;>
      simp only [repoRequires, List.mem_singleton, List.not_mem_nil] at h <;>
      subst h <;> decide
  induction requires with
  | single h => exact direct h
  | tail _ h ih => exact (direct h).trans ih

theorem exists_resolveDeps (selected : List Repo) :
    ∃ result, resolveDeps selected = some result := by
  have houtside : ∀ repo, repo ∉ startOrder.toFinset →
      repoRequires repo = [] := by
    intro repo hrepo
    exact absurd (List.mem_toFinset.mpr (mem_startOrder repo)) hrepo
  exact Worklist.explore_isSome houtside le_rfl

theorem mem_resolveDeps_iff {selected : List Repo} {repo : Repo} :
    repo ∈ (resolveDeps selected).getD [] ↔
      ∃ app ∈ selected, Worklist.Leads repoRequires app repo := by
  obtain ⟨result, hresult⟩ := exists_resolveDeps selected
  rw [hresult, Option.getD_some]
  exact Worklist.mem_explore_iff hresult

section Detect

variable {shell : Shell} {request : Request} {arg : String} {args : List String}
variable {repo : Repo}

theorem lookup_appFlags_iff :
    appFlags.lookup arg = some repo ↔ (arg, repo) ∈ appFlags := by
  constructor
  · intro h
    obtain ⟨before, after, hflags, _⟩ := List.lookup_eq_some_iff.mp h
    rw [hflags]
    exact List.mem_append_right before List.mem_cons_self
  · intro h
    simp only [appFlags, List.mem_cons, List.not_mem_nil, or_false,
      Prod.mk.injEq] at h
    obtain ⟨rfl, rfl⟩ | ⟨rfl, rfl⟩ | ⟨rfl, rfl⟩ | ⟨rfl, rfl⟩ | ⟨rfl, rfl⟩ |
      ⟨rfl, rfl⟩ := h <;> decide

theorem Shell.mem_values_iff (shell : Shell) :
    repo ∈ shell.values ↔ ∃ flag, (flag, repo) ∈ appFlags := by
  rw [shell.perm.mem_iff, List.mem_map]
  constructor
  · rintro ⟨⟨flag, other⟩, hflag, rfl⟩
    exact ⟨flag, hflag⟩
  · rintro ⟨flag, hflag⟩
    exact ⟨(flag, repo), hflag, rfl⟩

/-- An app is selected by its flag, or by the flag for all of them. -/
def Selects (args : List String) (repo : Repo) : Prop :=
  ∃ flag, (flag, repo) ∈ appFlags ∧ (flag ∈ args ∨ "--full" ∈ args)

theorem full_not_flag : appFlags.lookup "--full" = none := by decide

theorem mem_selectedApps_detect :
    repo ∈ (request.detect shell arg).selectedApps ↔
      repo ∈ request.selectedApps ∨
        ∃ flag, (flag, repo) ∈ appFlags ∧ (flag = arg ∨ "--full" = arg) := by
  unfold Request.detect
  cases hflag : appFlags.lookup arg with
  | some app =>
      have hmem := lookup_appFlags_iff.mp hflag
      dsimp only
      rw [List.mem_append, List.mem_singleton]
      refine or_congr_right ⟨?_, ?_⟩
      · rintro rfl
        exact ⟨arg, hmem, .inl rfl⟩
      · rintro ⟨flag, hother, rfl | rfl⟩
        · rw [lookup_appFlags_iff.mpr hother] at hflag
          exact Option.some.inj hflag
        · rw [full_not_flag] at hflag
          cases hflag
  | none =>
      dsimp only
      by_cases hfull : arg = "--full"
      · rw [if_pos hfull, List.mem_append, shell.mem_values_iff]
        refine or_congr_right ⟨?_, ?_⟩
        · rintro ⟨flag, hother⟩
          exact ⟨flag, hother, .inr hfull.symm⟩
        · rintro ⟨flag, hother, _⟩
          exact ⟨flag, hother⟩
      · have hselected : ∀ flag, (flag, repo) ∈ appFlags →
            ¬ (flag = arg ∨ "--full" = arg) := by
          rintro flag hother (rfl | rfl)
          · rw [lookup_appFlags_iff.mpr hother] at hflag
            cases hflag
          · exact hfull rfl
        have hnone : ¬ ∃ flag, (flag, repo) ∈ appFlags ∧
            (flag = arg ∨ "--full" = arg) := by
          rintro ⟨flag, hother, harg⟩
          exact hselected flag hother harg
        rw [if_neg hfull, or_iff_left hnone]
        cases repos arg with
        | some target => rfl
        | none =>
            dsimp only
            split <;> rfl

theorem mem_selectedApps_iff :
    repo ∈ (detect shell args).selectedApps ↔ Selects args repo := by
  have general : ∀ request : Request,
      repo ∈ (args.foldl (Request.detect shell) request).selectedApps ↔
        repo ∈ request.selectedApps ∨ Selects args repo := by
    induction args with
    | nil =>
        intro request
        simp [Selects]
    | cons arg args ih =>
        intro request
        rw [List.foldl_cons, ih, mem_selectedApps_detect, or_assoc]
        refine or_congr_right ?_
        simp only [Selects, List.mem_cons, ← exists_or, ← and_or_left]
        refine exists_congr fun flag => and_congr_right fun _ => ?_
        tauto
  have hempty := general {}
  rw [detect, hempty]
  exact or_iff_right List.not_mem_nil

theorem full_detect :
    (request.detect shell arg).full = (request.full || arg == "--full") := by
  unfold Request.detect
  cases hflag : appFlags.lookup arg with
  | some app =>
      have hne : (arg == "--full") = false := by
        refine beq_eq_false_iff_ne.mpr fun heq => ?_
        rw [heq, full_not_flag] at hflag
        cases hflag
      rw [hne, Bool.or_false]
  | none =>
      dsimp only
      by_cases hfull : arg = "--full"
      · rw [if_pos hfull, hfull, beq_self_eq_true, Bool.or_true]
      · rw [if_neg hfull, beq_eq_false_iff_ne.mpr hfull, Bool.or_false]
        cases repos arg with
        | some target => rfl
        | none =>
            dsimp only
            split <;> rfl

theorem full_iff : (detect shell args).full = true ↔ "--full" ∈ args := by
  have general : ∀ request : Request,
      (args.foldl (Request.detect shell) request).full = true ↔
        request.full = true ∨ "--full" ∈ args := by
    induction args with
    | nil =>
        intro request
        simp
    | cons arg args ih =>
        intro request
        rw [List.foldl_cons, ih, full_detect, Bool.or_eq_true, or_assoc,
          List.mem_cons, beq_iff_eq, eq_comm (a := arg)]
  rw [detect, general {}]
  exact or_iff_right Bool.false_ne_true

theorem repos_name (repo : Repo) : repos repo.name = some repo := by
  cases repo <;> decide

theorem eq_name_of_repos (h : repos arg = some repo) : arg = repo.name := by
  unfold repos at h
  have hname := List.find?_some h
  exact (of_decide_eq_true hname).symm

theorem detect_name :
    request.detect shell repo.name =
      { request with targetRepo := some repo } := by
  have hflag : appFlags.lookup repo.name = none := by cases repo <;> decide
  have hfull : repo.name ≠ "--full" := by cases repo <;> decide
  rw [Request.detect, hflag]
  dsimp only
  rw [if_neg hfull, repos_name]

theorem targetRepo_detect (h : repos arg = none) :
    (request.detect shell arg).targetRepo = request.targetRepo := by
  unfold Request.detect
  cases appFlags.lookup arg with
  | some app => rfl
  | none =>
      dsimp only
      rw [h]
      split
      · rfl
      · dsimp only
        split <;> rfl

theorem targetRepo_eq :
    (detect shell args).targetRepo = (args.reverse.findSome? repos) := by
  have general : ∀ request : Request,
      (args.foldl (Request.detect shell) request).targetRepo =
        (args.reverse.findSome? repos).or request.targetRepo := by
    induction args with
    | nil =>
        intro request
        rfl
    | cons arg args ih =>
        intro request
        rw [List.foldl_cons, ih, List.reverse_cons, List.findSome?_append,
          Option.or_assoc, List.findSome?_singleton]
        congr 1
        cases harg : repos arg with
        | none => rw [targetRepo_detect harg, Option.none_or]
        | some repo => rw [eq_name_of_repos harg, detect_name, Option.some_or]
  rw [detect, general {}, Option.or_none]

end Detect

/-! What an invocation operates on. -/

section ReposToRun

variable {shell : Shell} {command : String} {request : Request}
variable {args : List String} {reposToRun : List Repo}

/-- No argument names a repository, and the repositories are those of the
request. -/
theorem reposToRun_of_invocation
    (h : invocation shell (command :: args) =
      .operate command request reposToRun) :
    request = detect shell args ∧ reposToRun = request.reposToRun command ∧
      (request.selectedApps ≠ [] → request.targetRepo = none ∧
        request.targetService = "") := by
  unfold invocation at h
  dsimp only at h
  split_ifs at h with _ _ hrepo hservice
  cases h
  refine ⟨rfl, rfl, fun hselected => ⟨?_, ?_⟩⟩
  · by_contra htarget
    exact hrepo ⟨hselected, htarget⟩
  · by_contra htarget
    exact hservice ⟨hselected, htarget⟩

theorem selectedApps_ne_nil_iff :
    (detect shell args).selectedApps ≠ [] ↔ ∃ app, Selects args app := by
  rw [← List.length_pos_iff, List.length_pos_iff_exists_mem]
  exact exists_congr fun app => mem_selectedApps_iff

theorem not_mem_of_nodup {before after : List Repo} {repo : Repo}
    (h : (before ++ repo :: after).Nodup) : repo ∉ before ++ after :=
  (List.nodup_cons.mp (List.nodup_middle.mp h)).1

/-- In a list of repositories in the order of a start, one that comes before
another stands before it. -/
theorem mem_before_of_place_lt {before after : List Repo} {repo other : Repo}
    (ordered : (before ++ repo :: after).Pairwise fun first second =>
      place first < place second)
    (hmem : other ∈ before ++ repo :: after) (hlt : place other < place repo) :
    other ∈ before := by
  obtain hbefore | hlater := List.mem_append.mp hmem
  · exact hbefore
  · obtain rfl | hafter := List.mem_cons.mp hlater
    · exact absurd hlt (lt_irrefl _)
    · have hrest := (List.pairwise_append.mp ordered).2.1
      have hgt := (List.pairwise_cons.mp hrest).1 other hafter
      exact absurd hlt (lt_asymm hgt)

theorem mem_after_of_place_lt {before after : List Repo} {repo other : Repo}
    (ordered : (before ++ repo :: after).Pairwise fun first second =>
      place second < place first)
    (hmem : other ∈ before ++ repo :: after) (hlt : place other < place repo) :
    other ∈ after := by
  obtain hbefore | hlater := List.mem_append.mp hmem
  · have hgt := (List.pairwise_append.mp ordered).2.2 other hbefore repo
      List.mem_cons_self
    exact absurd hlt (lt_asymm hgt)
  · obtain rfl | hafter := List.mem_cons.mp hlater
    · exact absurd hlt (lt_irrefl _)
    · exact hafter

theorem reposToRun_up_of_selected (h : request.selectedApps ≠ []) :
    request.reposToRun "up" =
      startOrder.filter fun repo =>
        repo ∈ (resolveDeps request.selectedApps).getD [] := by
  rw [Request.reposToRun, if_pos h, if_pos rfl]

theorem reposToRun_of_selected (hcommand : command ≠ "up")
    (h : request.selectedApps ≠ []) :
    request.reposToRun command =
      stopOrder.filter fun repo =>
        repo ∈ if request.full then stopOrder else request.selectedApps := by
  rw [Request.reposToRun, if_pos h, if_neg hcommand]

theorem reposToRun_of_named {repo : Repo} (h : request.selectedApps = [])
    (hrepo : request.targetRepo = some repo) :
    request.reposToRun command = [repo] := by
  rw [Request.reposToRun, if_neg (not_not_intro h), hrepo]

theorem reposToRun_of_none (h : request.selectedApps = [])
    (hrepo : request.targetRepo = none) :
    request.reposToRun command =
      if command = "up" then startOrder else stopOrder := by
  rw [Request.reposToRun, if_neg (not_not_intro h), hrepo]

theorem reposToRun_up_sublist (request : Request) :
    (request.reposToRun "up").Sublist startOrder := by
  by_cases h : request.selectedApps = []
  · cases hrepo : request.targetRepo with
    | some repo =>
        rw [reposToRun_of_named h hrepo]
        exact List.singleton_sublist.mpr (mem_startOrder repo)
    | none =>
        rw [reposToRun_of_none h hrepo, if_pos rfl]
  · rw [reposToRun_up_of_selected h]
    exact List.filter_sublist

theorem reposToRun_sublist (hcommand : command ≠ "up") (request : Request) :
    (request.reposToRun command).Sublist stopOrder := by
  by_cases h : request.selectedApps = []
  · cases hrepo : request.targetRepo with
    | some repo =>
        rw [reposToRun_of_named h hrepo]
        exact List.singleton_sublist.mpr (mem_stopOrder repo)
    | none =>
        rw [reposToRun_of_none h hrepo, if_neg hcommand]
  · rw [reposToRun_of_selected hcommand h]
    exact List.filter_sublist

theorem mem_reposToRun_up (hrepo : request.targetRepo = none) {repo : Repo} :
    repo ∈ request.reposToRun "up" ↔
      (request.selectedApps ≠ [] →
        ∃ app ∈ request.selectedApps,
          Worklist.Leads repoRequires app repo) := by
  by_cases h : request.selectedApps = []
  · rw [reposToRun_of_none h hrepo, if_pos rfl]
    exact iff_of_true (mem_startOrder repo) fun hne => absurd h hne
  · rw [reposToRun_up_of_selected h, List.mem_filter, decide_eq_true_eq,
      mem_resolveDeps_iff, and_iff_right (mem_startOrder repo), imp_iff_right h]

theorem mem_reposToRun (hcommand : command ≠ "up")
    (hrepo : request.targetRepo = none) {repo : Repo} :
    repo ∈ request.reposToRun command ↔
      (request.selectedApps ≠ [] →
        request.full = true ∨ repo ∈ request.selectedApps) := by
  by_cases h : request.selectedApps = []
  · rw [reposToRun_of_none h hrepo, if_neg hcommand]
    exact iff_of_true (mem_stopOrder repo) fun hne => absurd h hne
  · rw [reposToRun_of_selected hcommand h, List.mem_filter, decide_eq_true_eq,
      and_iff_right (mem_stopOrder repo), imp_iff_right h]
    by_cases hfull : request.full = true
    · rw [if_pos hfull]
      exact iff_of_true (mem_stopOrder repo) (.inl hfull)
    · rw [if_neg hfull]
      exact (or_iff_right hfull).symm

theorem targetRepo_eq_none (h : ∀ arg ∈ args, repos arg = none) :
    (detect shell args).targetRepo = none := by
  rw [targetRepo_eq, List.findSome?_eq_none_iff]
  intro arg harg
  exact h arg (List.mem_reverse.mp harg)

section Up

variable (h : invocation shell ("up" :: args) =
  .operate "up" request reposToRun)
variable (hrepo : ∀ arg ∈ args, repos arg = none)

include h hrepo

theorem mem_up_iff {repo : Repo} :
    repo ∈ reposToRun ↔
      ((∃ app, Selects args app) →
        ∃ app, Selects args app ∧ (repo = app ∨ Requires app repo)) := by
  obtain ⟨rfl, rfl, _⟩ := reposToRun_of_invocation h
  rw [mem_reposToRun_up (targetRepo_eq_none hrepo), selectedApps_ne_nil_iff]
  refine imp_congr_right fun _ => exists_congr fun app => ?_
  rw [mem_selectedApps_iff]
  exact and_congr_right fun _ => Relation.reflTransGen_iff_eq_or_transGen

theorem mem_up_of_requires {repo required : Repo} (hmem : repo ∈ reposToRun)
    (requires : Requires repo required) : required ∈ reposToRun := by
  rw [mem_up_iff h hrepo] at hmem ⊢
  intro hselected
  obtain ⟨app, happ, hled⟩ := hmem hselected
  refine ⟨app, happ, .inr ?_⟩
  obtain rfl | hled := hled
  · exact requires
  · exact hled.trans requires

end Up

/-- Started without the name of a repository, the wrapper operates on the
selected apps and on whatever they require, or on everything where nothing is
selected; each once, and only after all that it requires. -/
theorem up_reposToRun
    (h : invocation shell ("up" :: args) = .operate "up" request reposToRun)
    (hrepo : ∀ arg ∈ args, repos arg = none) :
    (∀ repo, repo ∈ reposToRun ↔
      ((∃ app, Selects args app) →
        ∃ app, Selects args app ∧ (repo = app ∨ Requires app repo))) ∧
      ∀ before repo after, reposToRun = before ++ repo :: after →
        repo ∉ before ++ after ∧
          ∀ required, Requires repo required → required ∈ before := by
  refine ⟨fun repo => mem_up_iff h hrepo, ?_⟩
  rintro before repo after rfl
  have hrequest := reposToRun_of_invocation h
  have ordered := startOrder_pairwise.sublist (reposToRun_up_sublist request)
  rw [← hrequest.2.1] at ordered
  constructor
  · refine not_mem_of_nodup (ordered.imp fun hlt heq => ?_)
    exact hlt.ne (congrArg place heq)
  · intro required requires
    refine mem_before_of_place_lt ordered ?_ requires.place_lt
    exact mem_up_of_requires h hrepo
      (List.mem_append_right before List.mem_cons_self) requires

def tableOrder : Shell := ⟨appFlags.map Prod.snd, List.Perm.refl _⟩

theorem up_reposToRun_chat :
    Repo.chatApp ∉ [.twakeDb, .twakeAuth] ++ [] ∧
      ∀ required, Requires .chatApp required →
        required ∈ [Repo.twakeDb, .twakeAuth] :=
  (@up_reposToRun tableOrder (detect tableOrder ["--chat", "-d"])
    ["--chat", "-d"] [.twakeDb, .twakeAuth, .chatApp] rfl (by decide)).2
    [.twakeDb, .twakeAuth] .chatApp [] rfl

theorem not_requires_app {repo app : Repo} (happ : Selects args app) :
    ¬ Requires repo app := by
  intro requires
  obtain ⟨flag, hflag, _⟩ := happ
  obtain ⟨middle, hmiddle⟩ : ∃ middle, app ∈ repoRequires middle := by
    cases requires with
    | single h => exact ⟨repo, h⟩
    | tail _ h => exact ⟨_, h⟩
  have hinfra : app = .twakeDb ∨ app = .twakeAuth := by
    cases middle <;>
      simp only [repoRequires, List.mem_singleton, List.not_mem_nil] at hmiddle
    all_goals simp [hmiddle]
  obtain rfl | rfl := hinfra <;> simp [appFlags] at hflag

/-- With any other command and without the name of a repository, the wrapper
operates on the selected apps alone, or on everything where nothing or `--full`
is selected; each once, and before all that it requires.  What is left alone
requires nothing of what it operates on. -/
theorem down_reposToRun (hcommand : command ≠ "up")
    (h : invocation shell (command :: args) =
      .operate command request reposToRun)
    (hrepo : ∀ arg ∈ args, repos arg = none) :
    (∀ repo, repo ∈ reposToRun ↔
      ((∃ app, Selects args app) →
        "--full" ∈ args ∨ Selects args repo)) ∧
      (∀ before repo after, reposToRun = before ++ repo :: after →
        repo ∉ before ++ after ∧
          ∀ required ∈ reposToRun, Requires repo required →
            required ∈ after) ∧
      ∀ repo required, repo ∉ reposToRun → Requires repo required →
        required ∉ reposToRun := by
  obtain ⟨rfl, rfl, _⟩ := reposToRun_of_invocation h
  have hmem : ∀ repo, repo ∈ (detect shell args).reposToRun command ↔
      ((∃ app, Selects args app) → "--full" ∈ args ∨ Selects args repo) := by
    intro repo
    rw [mem_reposToRun hcommand (targetRepo_eq_none hrepo),
      selectedApps_ne_nil_iff, full_iff, mem_selectedApps_iff]
  have ordered := stopOrder_pairwise.sublist
    (reposToRun_sublist hcommand (detect shell args))
  refine ⟨hmem, fun before repo after hsplit => ?_, ?_⟩
  · rw [hsplit] at ordered ⊢
    constructor
    · refine not_mem_of_nodup (ordered.imp fun hlt heq => ?_)
      exact hlt.ne (congrArg place heq.symm)
    · intro required hrequired requires
      exact mem_after_of_place_lt ordered hrequired requires.place_lt
  · intro repo required hleft requires hrequired
    rw [hmem] at hleft hrequired
    refine hleft fun hselected => ?_
    obtain hfull | happ := hrequired hselected
    · exact .inl hfull
    · exact absurd requires (not_requires_app happ)

theorem down_reposToRun_chat :
    (∀ before repo after, [Repo.chatApp] = before ++ repo :: after →
      repo ∉ before ++ after ∧
        ∀ required ∈ [Repo.chatApp], Requires repo required →
          required ∈ after) ∧
      ∀ repo required, repo ∉ [Repo.chatApp] → Requires repo required →
        required ∉ [Repo.chatApp] :=
  (@down_reposToRun tableOrder "down" (detect tableOrder ["--chat"]) ["--chat"]
    [.chatApp] (by decide) rfl (by decide)).2

end ReposToRun

end TwakeKickstart.Wrapper
