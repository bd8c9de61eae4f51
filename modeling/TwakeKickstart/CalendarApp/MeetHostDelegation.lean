import TwakeKickstart.CalendarApp.Delegates
import TwakeKickstart.Library.Mono
import Mathlib.Data.List.Induction

namespace TwakeKickstart.CalendarApp

open Library

/-! Hosts of a meeting get access to its room when its event is saved. -/

/-- A property of an event; an organizer's one has a mail address too. -/
structure EventProperty where
  name : String
  value : Option String
  mailAddress : Option String

namespace EventProperty

def organizerProperty : String := "organizer"

def videoconference : String := "x-openpaas-videoconference"

def delegateHosts : String := "x-twake-delegate-hosts"

end EventProperty

/-- A call of the application interface of the meeting server. -/
inductive Call where
  | token (organizerEmail : String)
  | rooms (token slug : String)
  | grantAccess (token roomId email : String)
  deriving DecidableEq

abbrev History := List Call

/-- What the server answers, after the calls that were made before. -/
structure MeetApplicationClient where
  fetchApplicationToken : History → String → Signal String
  findRoomIdBySlug : History → String → String → Signal (Option String)
  grantAccess : History → String → String → String → Signal Unit

structure Service where
  enabled : Bool
  client : MeetApplicationClient
  /-- The raw path of a link, and nothing where the link is malformed. -/
  rawPath : String → Option (Option String)
  /-- Without a configuration there is no client behind the interface. -/
  disabled : enabled = false → ∀ history organizerEmail,
    ∃ message, client.fetchApplicationToken history organizerEmail =
      .error message

structure Delegation where
  organizerEmail : String
  roomSlug : String
  delegateEmails : List String

def isJavaWhitespace (c : Char) : Bool :=
  c == ' ' || ('\t' ≤ c && c ≤ '\r') || ('\u001c' ≤ c && c ≤ '\u001f') ||
    c == '\u1680' || ('\u2000' ≤ c && c ≤ '\u2006') ||
    ('\u2008' ≤ c && c ≤ '\u200a') || c == '\u2028' || c == '\u2029' ||
    c == '\u205f' || c == '\u3000'

/-- The last segment of the path that is not blank. -/
def extractSlug (service : Service) (meetUrl : String) : Option String :=
  (service.rawPath meetUrl).bind fun path =>
    path.bind fun path =>
      ((path.toList.splitOn '/').filter
        (fun segment => !segment.all isJavaWhitespace)).getLast?.map
          String.ofList

structure Collected where
  organizerEmail : Option String := none
  meetUrl : Option String := none
  delegatesRaw : Option String := none

def Collected.add (collected : Collected) (property : EventProperty) :
    Collected :=
  if property.name = EventProperty.organizerProperty then
    match property.mailAddress with
    | some mailAddress => { collected with organizerEmail := mailAddress }
    | none => collected
  else if property.name = EventProperty.videoconference then
    { collected with meetUrl := property.value }
  else if property.name = EventProperty.delegateHosts then
    { collected with delegatesRaw := property.value }
  else collected

def toDelegation (service : Service) (properties : List EventProperty) :
    Option Delegation :=
  let collected := properties.foldl Collected.add {}
  match collected.organizerEmail, collected.meetUrl,
      collected.delegatesRaw with
  | some organizerEmail, some meetUrl, some delegatesRaw =>
      let delegates := splitToList delegatesRaw
      if delegates = [] then none
      else
        let slug := (extractSlug service meetUrl).getD ""
        if slug = "" then none
        else some ⟨organizerEmail, slug, delegates⟩
  | _, _, _ => none

/-- A call, noted before its answer. -/
def call {α : Type} (made : Call) (answer : History → Signal α) :
    Mono History α :=
  fun history => (history ++ [made], answer history)

namespace Service

variable (service : Service)

def fetchApplicationToken (organizerEmail : String) : Mono History String :=
  call (.token organizerEmail) fun history =>
    service.client.fetchApplicationToken history organizerEmail

def resolveRoomId (token : String) (delegation : Delegation) :
    Mono History (Option String) :=
  if delegation.roomSlug = "" then .just none
  else
    call (.rooms token delegation.roomSlug) fun history =>
      service.client.findRoomIdBySlug history token delegation.roomSlug

def grantAccess (token roomId email : String) : Mono History Unit :=
  call (.grantAccess token roomId email) fun history =>
    service.client.grantAccess history token roomId email

def grantForDelegation (delegation : Delegation) : Mono History Unit :=
  (service.fetchApplicationToken delegation.organizerEmail).flatMap
    fun token =>
      (service.resolveRoomId token delegation).flatMap fun roomId =>
        match roomId with
        | none => .empty
        | some roomId =>
            (Mono.concatMap (fun email =>
              (service.grantAccess token roomId email).onErrorEmpty)
              delegation.delegateEmails).andThen

/-- `extracted` are the properties of each event of a message, where they can
be read. -/
def extractDelegations
    (extracted : Except String (List (List EventProperty))) :
    Mono History (List Delegation) :=
  match extracted with
  | .ok perEvent => .just (perEvent.filterMap (toDelegation service))
  | .error message => .error message

def onEventSaved (extracted : Except String (List (List EventProperty))) :
    Mono History Unit :=
  if service.enabled = false then .empty
  else
    ((service.extractDelegations extracted).flatMap fun delegations =>
      (Mono.concatMap (fun delegation =>
        (service.grantForDelegation delegation).onErrorEmpty)
        delegations).andThen).onErrorEmpty

end Service

/-! What the properties of an event ask for. -/

def named (name : String) (properties : List EventProperty) :
    List EventProperty :=
  properties.filter (·.name = name)

def lastValue (name : String) (properties : List EventProperty) :
    Option String :=
  (named name properties).getLast?.bind EventProperty.value

def organizerOf (properties : List EventProperty) : Option String :=
  ((named EventProperty.organizerProperty properties).filterMap
    EventProperty.mailAddress).getLast?

/-- An event with an organizer, a link with a slug, and delegates. -/
structure Delegates (service : Service) (properties : List EventProperty)
    (delegation : Delegation) : Prop where
  organizer : organizerOf properties = some delegation.organizerEmail
  slug : (lastValue EventProperty.videoconference properties).bind
    (extractSlug service) = some delegation.roomSlug
  delegates : (lastValue EventProperty.delegateHosts properties).map
    splitToList = some delegation.delegateEmails
  nonempty : delegation.delegateEmails ≠ []

def Call.isGrant : Call → Bool
  | token _ => false
  | rooms _ _ => false
  | grantAccess _ _ _ => true

/-- The grants for an event, after the calls that were made before it: one for
each delegate once its token and its room are found. -/
inductive GrantsFor (service : Service) (history : History)
    (properties : List EventProperty) : List Call → Prop
  | granted {delegation : Delegation} {token roomId : String}
      (delegates : Delegates service properties delegation)
      (fetched : service.client.fetchApplicationToken history
        delegation.organizerEmail = .value token)
      (found : service.client.findRoomIdBySlug
        (history ++ [.token delegation.organizerEmail]) token
        delegation.roomSlug = .value (some roomId)) :
      GrantsFor service history properties
        (delegation.delegateEmails.map (.grantAccess token roomId))
  | nothing
      (failed : ∀ delegation token roomId,
        Delegates service properties delegation →
        service.client.fetchApplicationToken history
          delegation.organizerEmail = .value token →
        service.client.findRoomIdBySlug
          (history ++ [.token delegation.organizerEmail]) token
          delegation.roomSlug ≠ .value (some roomId)) :
      GrantsFor service history properties []

/-- The calls of a run, event after event. -/
inductive Serves (service : Service) :
    History → List (List EventProperty) → History → Prop
  | nil {history : History} : Serves service history [] history
  | cons {history log : History} {properties : List EventProperty}
      {rest : List (List EventProperty)} (calls : List Call)
      (grants : GrantsFor service history properties
        (calls.filter Call.isGrant))
      (others : Serves service (history ++ calls) rest log) :
      Serves service history (properties :: rest) log

/-! The loop over the properties. -/

theorem organizerOf_append (properties : List EventProperty)
    (property : EventProperty) :
    organizerOf (properties ++ [property]) =
      (if property.name = EventProperty.organizerProperty then
        property.mailAddress else none).or (organizerOf properties) := by
  rw [organizerOf, named, List.filter_append, List.filterMap_append,
    List.getLast?_append]
  by_cases hname : property.name = EventProperty.organizerProperty
  · cases haddress : property.mailAddress <;>
      simp [hname, haddress, organizerOf, named]
  · simp [hname, organizerOf, named]

theorem lastValue_append (name : String) (properties : List EventProperty)
    (property : EventProperty) :
    lastValue name (properties ++ [property]) =
      if property.name = name then property.value
      else lastValue name properties := by
  rw [lastValue, named, List.filter_append, List.getLast?_append]
  by_cases hname : property.name = name
  · simp [hname]
  · simp [hname, lastValue, named]

theorem foldl_add (properties : List EventProperty) :
    properties.foldl Collected.add {} =
      { organizerEmail := organizerOf properties
        meetUrl := lastValue EventProperty.videoconference properties
        delegatesRaw := lastValue EventProperty.delegateHosts properties } := by
  induction properties using List.reverseRecOn with
  | nil => rfl
  | append_singleton properties property ih =>
      rw [List.foldl_append, ih, List.foldl_cons, List.foldl_nil,
        organizerOf_append, lastValue_append, lastValue_append, Collected.add]
      by_cases horganizer : property.name = EventProperty.organizerProperty
      · rw [if_pos horganizer, if_pos horganizer,
          if_neg (by rw [horganizer]; decide),
          if_neg (by rw [horganizer]; decide)]
        cases property.mailAddress <;> rfl
      rw [if_neg horganizer, if_neg horganizer, Option.none_or]
      by_cases hlink : property.name = EventProperty.videoconference
      · rw [if_pos hlink, if_pos hlink, if_neg (by rw [hlink]; decide)]
      rw [if_neg hlink, if_neg hlink]
      by_cases hdelegates : property.name = EventProperty.delegateHosts
      · rw [if_pos hdelegates, if_pos hdelegates]
      · rw [if_neg hdelegates, if_neg hdelegates]

theorem extractSlug_ne_empty {service : Service} {link slug : String}
    (h : extractSlug service link = some slug) : slug ≠ "" := by
  rintro rfl
  obtain ⟨path, _, hpath⟩ := Option.bind_eq_some_iff.mp h
  obtain ⟨text, _, htext⟩ := Option.bind_eq_some_iff.mp hpath
  obtain ⟨segment, hsegment, hempty⟩ := Option.map_eq_some_iff.mp htext
  have hmem := List.mem_of_getLast? hsegment
  have hnil : segment = [] := String.ofList_injective hempty
  rw [hnil] at hmem
  have hblank := List.of_mem_filter hmem
  revert hblank
  decide

theorem toDelegation_eq_some_iff {service : Service}
    {properties : List EventProperty} {delegation : Delegation} :
    toDelegation service properties = some delegation ↔
      Delegates service properties delegation := by
  rw [toDelegation, foldl_add]
  dsimp only
  constructor
  · intro h
    split at h
    · rename_i organizerEmail meetUrl delegatesRaw horganizer hlink hraw
      split at h
      · cases h
      split at h
      · cases h
      rename_i hdelegates hslug
      cases h
      refine ⟨horganizer, ?_, ?_, hdelegates⟩
      · rw [hlink, Option.bind_some]
        cases hextract : extractSlug service meetUrl with
        | none =>
            rw [hextract] at hslug
            exact absurd rfl hslug
        | some slug => rfl
      · rw [hraw]
        rfl
    · cases h
  · rintro ⟨horganizer, hslug, hdelegates, hnonempty⟩
    obtain ⟨link, hlink, hslug⟩ := Option.bind_eq_some_iff.mp hslug
    obtain ⟨raw, hraw, hdelegates⟩ := Option.map_eq_some_iff.mp hdelegates
    rw [horganizer, hlink, hraw]
    dsimp only
    rw [hdelegates, if_neg hnonempty, hslug, Option.getD_some,
      if_neg (extractSlug_ne_empty hslug)]

/-! The calls for one event, and for all of them. -/

section Service

variable {service : Service}

theorem foldl_grants (token roomId : String) (emails : List String)
    (history : History) :
    emails.foldl (fun history email =>
        ((service.grantAccess token roomId email).onErrorEmpty history).1)
      history = history ++ emails.map (.grantAccess token roomId) := by
  induction emails generalizing history with
  | nil => exact (List.append_nil _).symm
  | cons email emails ih =>
      rw [List.foldl_cons, ih, Mono.onErrorEmpty_fst, List.map_cons]
      exact List.append_assoc _ _ _

theorem filter_grants (token roomId : String) (emails : List String) :
    (emails.map (Call.grantAccess token roomId)).filter Call.isGrant =
      emails.map (.grantAccess token roomId) := by
  rw [List.filter_eq_self]
  intro made hmade
  obtain ⟨_, _, rfl⟩ := List.mem_map.mp hmade
  rfl

theorem delegation_unique {properties : List EventProperty}
    {delegation other : Delegation}
    (h : Delegates service properties delegation)
    (hother : Delegates service properties other) : other = delegation := by
  have hsame := toDelegation_eq_some_iff.mpr hother
  rw [toDelegation_eq_some_iff.mpr h] at hsame
  exact (Option.some.inj hsame).symm

theorem grantsFor_of_failed {properties : List EventProperty}
    {delegation : Delegation} {history : History}
    (delegates : Delegates service properties delegation)
    (failed : ∀ token roomId,
      service.client.fetchApplicationToken history
        delegation.organizerEmail = .value token →
      service.client.findRoomIdBySlug
        (history ++ [.token delegation.organizerEmail]) token
        delegation.roomSlug ≠ .value (some roomId)) :
    GrantsFor service history properties [] := by
  apply GrantsFor.nothing
  intro other token roomId hother
  cases delegation_unique delegates hother
  exact failed token roomId

theorem grantForDelegation_calls {properties : List EventProperty}
    {delegation : Delegation}
    (delegates : Delegates service properties delegation)
    (history : History) :
    ∃ calls, (service.grantForDelegation delegation history).1 =
      history ++ calls ∧
        GrantsFor service history properties (calls.filter Call.isGrant) := by
  have hslug : delegation.roomSlug ≠ "" := by
    obtain ⟨link, _, hlink⟩ := Option.bind_eq_some_iff.mp delegates.slug
    exact extractSlug_ne_empty hlink
  rw [Service.grantForDelegation, Mono.flatMap,
    Service.fetchApplicationToken, call]
  cases hfetch : service.client.fetchApplicationToken history
      delegation.organizerEmail with
  | empty =>
      refine ⟨[_], rfl, grantsFor_of_failed delegates ?_⟩
      intro token roomId hvalue
      rw [hfetch] at hvalue
      cases hvalue
  | error message =>
      refine ⟨[_], rfl, grantsFor_of_failed delegates ?_⟩
      intro token roomId hvalue
      rw [hfetch] at hvalue
      cases hvalue
  | value token =>
      dsimp only
      rw [Mono.flatMap, Service.resolveRoomId, if_neg hslug, call]
      have hfailed (h : ∀ roomId, service.client.findRoomIdBySlug
          (history ++ [.token delegation.organizerEmail]) token
          delegation.roomSlug ≠ .value (some roomId)) :
          GrantsFor service history properties [] := by
        apply grantsFor_of_failed delegates
        intro other roomId hvalue
        rw [hfetch] at hvalue
        cases hvalue
        exact h roomId
      cases hfind : service.client.findRoomIdBySlug
          (history ++ [.token delegation.organizerEmail]) token
          delegation.roomSlug with
      | empty =>
          refine ⟨[_, _], List.append_assoc _ _ _, hfailed ?_⟩
          intro roomId hvalue
          rw [hfind] at hvalue
          cases hvalue
      | error message =>
          refine ⟨[_, _], List.append_assoc _ _ _, hfailed ?_⟩
          intro roomId hvalue
          rw [hfind] at hvalue
          cases hvalue
      | value room =>
          cases room with
          | none =>
              refine ⟨[_, _], List.append_assoc _ _ _, hfailed ?_⟩
              intro roomId hvalue
              rw [hfind] at hvalue
              cases hvalue
          | some roomId =>
              refine ⟨[.token delegation.organizerEmail,
                .rooms token delegation.roomSlug] ++
                  delegation.delegateEmails.map (.grantAccess token roomId),
                ?_, ?_⟩
              · dsimp only
                rw [Mono.andThen, Mono.concatMap_eq
                  fun email => Mono.noError_onErrorEmpty _, foldl_grants]
                simp
              · rw [List.filter_append, filter_grants]
                exact .granted delegates hfetch hfind

/-- The calls that are made after a run over all delegations. -/
def served (service : Service) (perEvent : List (List EventProperty))
    (history : History) : History :=
  (perEvent.filterMap (toDelegation service)).foldl
    (fun history delegation =>
      ((service.grantForDelegation delegation).onErrorEmpty history).1)
    history

theorem serves_events (perEvent : List (List EventProperty))
    (history : History) :
    Serves service history perEvent (served service perEvent history) := by
  induction perEvent generalizing history with
  | nil => exact .nil
  | cons properties rest ih =>
      cases hdelegation : toDelegation service properties with
      | none =>
          rw [served, List.filterMap_cons_none hdelegation]
          refine .cons [] (.nothing ?_) ?_
          · intro other token roomId hother
            rw [toDelegation_eq_some_iff.mpr hother] at hdelegation
            cases hdelegation
          · rw [List.append_nil]
            exact ih history
      | some delegation =>
          obtain ⟨calls, hcalls, hgrants⟩ := grantForDelegation_calls
            (toDelegation_eq_some_iff.mp hdelegation) history
          rw [served, List.filterMap_cons_some hdelegation, List.foldl_cons,
            Mono.onErrorEmpty_fst, hcalls]
          exact .cons calls hgrants (ih (history ++ calls))

theorem serves_disabled (disabled : service.enabled = false)
    (perEvent : List (List EventProperty)) (history : History) :
    Serves service history perEvent history := by
  induction perEvent with
  | nil => exact .nil
  | cons properties rest ih =>
      refine .cons [] (.nothing ?_) (by rwa [List.append_nil])
      intro delegation token roomId _ hvalue
      obtain ⟨message, herror⟩ := service.disabled disabled history
        delegation.organizerEmail
      rw [herror] at hvalue
      cases hvalue

/-- An event that is saved completes in any case, and each of its parts gets
the grants it asks for, whatever fails elsewhere. -/
theorem onEventSaved_serves (service : Service)
    (extracted : Except String (List (List EventProperty)))
    (history : History) :
    ∃ log, service.onEventSaved extracted history = (log, .empty) ∧
      ∀ perEvent, extracted = .ok perEvent →
        Serves service history perEvent log := by
  rw [Service.onEventSaved]
  split
  · rename_i hdisabled
    exact ⟨history, rfl, fun perEvent _ =>
      serves_disabled hdisabled perEvent history⟩
  · cases extracted with
    | error message => exact ⟨history, rfl, nofun⟩
    | ok perEvent =>
        refine ⟨served service perEvent history, ?_, ?_⟩
        · rw [Mono.onErrorEmpty, Mono.flatMap, Service.extractDelegations,
            Mono.just]
          dsimp only
          rw [Mono.andThen, Mono.concatMap_eq
            fun delegation => Mono.noError_onErrorEmpty _]
          rfl
        · intro other hother
          cases hother
          exact serves_events perEvent history

end Service

/-- The server refuses one of the delegates. -/
def sampleClient : MeetApplicationClient where
  fetchApplicationToken _ _ := .value "t0k3n"
  findRoomIdBySlug _ _ slug := .value (some (slug ++ "-room"))
  grantAccess _ _ _ email :=
    if email = "bob@example.org" then .error "403" else .empty

def sampleService (enabled : Bool) : Service where
  enabled := enabled
  client :=
    if enabled then sampleClient
    else { sampleClient with
      fetchApplicationToken := fun _ _ => .error "not configured" }
  rawPath
    | "https://meet.example.org/standup" => some (some "/standup")
    | _ => none
  disabled := by
    rintro rfl history organizerEmail
    exact ⟨_, rfl⟩

def meeting (link : String) : List EventProperty :=
  [⟨EventProperty.organizerProperty, none, some "alice@example.org"⟩,
    ⟨EventProperty.videoconference, some link, none⟩,
    ⟨EventProperty.delegateHosts,
      some "bob@example.org, carol@example.org", none⟩]

def meetings : List (List EventProperty) :=
  [meeting "https://meet.example.org/standup", meeting "nowhere",
    meeting "https://meet.example.org/standup"]

def standupCalls : List Call :=
  [.token "alice@example.org", .rooms "t0k3n" "standup",
    .grantAccess "t0k3n" "standup-room" "bob@example.org",
    .grantAccess "t0k3n" "standup-room" "carol@example.org"]

/-- The grant that fails holds up neither the one after it nor another
event. -/
theorem meetings_served :
    ((sampleService true).onEventSaved (.ok meetings) []).1 =
        standupCalls ++ standupCalls ∧
      Serves (sampleService true) [] meetings
        (standupCalls ++ standupCalls) := by
  have hcalls : ((sampleService true).onEventSaved (.ok meetings) []).1 =
      standupCalls ++ standupCalls := by
    decide +kernel
  obtain ⟨log, hrun, hserves⟩ := onEventSaved_serves (sampleService true)
    (.ok meetings) []
  rw [hrun] at hcalls
  subst hcalls
  exact ⟨congrArg Prod.fst hrun, hserves meetings rfl⟩

end TwakeKickstart.CalendarApp
