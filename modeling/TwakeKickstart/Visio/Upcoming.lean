import TwakeKickstart.Library.Paging
import TwakeKickstart.Visio.Event

namespace TwakeKickstart.Visio

open Library

/-! The widget's list of upcoming meetings: what a fetch selects, and what is
left of it once the statuses are shown. -/

namespace Upcoming

structure Config where
  windowPastMinutes : Nat
  windowFutureMinutes : Nat
  maxEventsToShow : Nat

def CFG : Config where
  windowPastMinutes := 60
  windowFutureMinutes := 24 * 60
  maxEventsToShow := 5

/-- An event with valid dates; comparisons with others are never true. -/
structure Meeting where
  event : Event
  start : TimeValue
  stop : TimeValue

def meeting? (event : Event) : Option Meeting :=
  event.start.bind fun start => event.stop.map fun stop =>
    ⟨event, start, stop⟩

/-- `e.hasMeet && e.end > horizonPast && e.start < horizonFuture` -/
def inHorizon (cfg : Config) (nowMs : Int) (meeting : Meeting) : Bool :=
  let horizonPast := nowMs - cfg.windowPastMinutes * 60000
  let horizonFuture := nowMs + cfg.windowFutureMinutes * 60000
  meeting.event.hasMeet && decide (horizonPast < meeting.stop.ms) &&
    decide (meeting.start.ms < horizonFuture)

def startsNoLater (a b : Meeting) : Bool := decide (a.start.ms ≤ b.start.ms)

/-- The events of the window, in order. -/
def sortedEvents (cfg : Config) (nowMs : Int) (events : List (Option Event)) :
    List Meeting :=
  ((events.filterMap (·.bind meeting?)).filter
    (inHorizon cfg nowMs)).mergeSort startsNoLater

/-- What `fetchUpcomingMeetEvents` makes of the parsed events. -/
def selectEvents (cfg : Config) (nowMs : Int) (events : List (Option Event)) :
    List Meeting :=
  (sortedEvents cfg nowMs events).take cfg.maxEventsToShow

def fetchUpcomingMeetEvents (page : Page) (cfg : Config) (nowMs : Int)
    (raws : List String) : List Meeting :=
  selectEvents cfg nowMs (raws.map (parseEvent page))

/-! The statuses. -/

/-- The texts of the page's language. -/
structure Locale where
  statusLive : String
  statusDone : String
  countdownIn : String → String
  /-- The day of an event that does not start today. -/
  dayLabel : (now : Int) → TimeValue → Option String

def padStart2 (n : Nat) : String :=
  if n < 10 then "0" ++ toString n else toString n

def countdown (totalSec : Nat) : String :=
  let h := totalSec / 3600
  let m := totalSec % 3600 / 60
  let s := totalSec % 60
  let hours := if 0 < h then [toString h ++ "h"] else []
  let minutes :=
    if 0 < h ∨ 0 < m then
      [(if 0 < h then padStart2 m else toString m) ++ "m"]
    else []
  let seconds := [(if 0 < m ∨ 0 < h then padStart2 s else toString s) ++ "s"]
  " ".intercalate (hours ++ minutes ++ seconds)

inductive Kind where
  | live
  | done
  | upcoming
  deriving DecidableEq

def statusFor (locale : Locale) (now : Int) (start stop : TimeValue) :
    Kind × String :=
  if start.ms ≤ now ∧ now < stop.ms then (.live, locale.statusLive)
  else if stop.ms ≤ now then (.done, locale.statusDone)
  else
    let msTo := start.ms - now
    let label := locale.countdownIn (countdown (msTo / 1000).toNat)
    match locale.dayLabel now start with
    | some day => (.upcoming, label ++ " (" ++ day ++ ")")
    | none => (.upcoming, label)

/-! The list on the page. -/

/-- A line of the list.  Its attributes hold the times, as decimal texts that
are read back as they were. -/
structure Item where
  meeting : Meeting
  dataStart : TimeValue
  dataEnd : TimeValue
  status : String

inductive View where
  | emptyState
  | list (items : List Item)

/-- The line with its status, or none when it is removed. -/
def tickItem (locale : Locale) (now : Int) (item : Item) : Option Item :=
  match statusFor locale now item.dataStart item.dataEnd with
  | (.done, _) => none
  | (.live, _) => some { item with status := " en cours" }
  | (.upcoming, label) => some { item with status := label }

def tickStatuses (locale : Locale) (now : Int) : View → View
  | .emptyState => .emptyState
  | .list items =>
      match items.filterMap (tickItem locale now) with
      | [] => .emptyState
      | left => .list left

def renderEvents (locale : Locale) (now : Int) (events : List Meeting) :
    View :=
  let items := events.map fun meeting =>
    { meeting, dataStart := meeting.start, dataEnd := meeting.stop
      status := "" }
  tickStatuses locale now (if events.isEmpty then .emptyState else .list items)

def View.displayed : View → List Meeting
  | .emptyState => []
  | .list items => items.map Item.meeting

/-! What the widget is to show. -/

/-- The event has not ended. -/
def isComing (now : Int) (meeting : Meeting) : Bool :=
  decide (now < meeting.stop.ms)

/-- The events of the window that have not ended. -/
def coming (cfg : Config) (now : Int) (events : List (Option Event)) :
    List Meeting :=
  ((events.filterMap (·.bind meeting?)).filter (inHorizon cfg now)).filter
    (isComing now)

/-- As many as there is room for, the earliest first. -/
def ShowsNext (cfg : Config) (now : Int) (events : List (Option Event))
    (shown : List Meeting) : Prop :=
  ∃ sorted : List Meeting, sorted.Perm (coming cfg now events) ∧
    sorted.Pairwise (fun a b => a.start.ms ≤ b.start.ms) ∧
    shown = sorted.take cfg.maxEventsToShow

section Selection

variable {cfg : Config} {now : Int} {events : List (Option Event)}

theorem statusFor_done_iff (locale : Locale) (now : Int)
    (start stop : TimeValue) :
    (statusFor locale now start stop).1 = .done ↔ stop.ms ≤ now := by
  rw [statusFor]
  split
  · rename_i hlive
    exact iff_of_false nofun (by omega)
  split
  · rename_i hdone
    exact iff_of_true rfl hdone
  · rename_i hdone
    refine iff_of_false ?_ hdone
    dsimp only
    split <;> exact nofun

theorem tickItem_meeting (locale : Locale) (now : Int) (meeting : Meeting) :
    (tickItem locale now ⟨meeting, meeting.start, meeting.stop, ""⟩).map
        Item.meeting =
      if isComing now meeting then some meeting else none := by
  have hdone := statusFor_done_iff locale now meeting.start meeting.stop
  cases hstatus : statusFor locale now meeting.start meeting.stop with
  | mk kind label =>
      rw [hstatus] at hdone
      rw [tickItem, hstatus]
      cases kind with
      | done =>
          have hstop := hdone.mp rfl
          rw [if_neg (by simpa [isComing] using hstop)]
          rfl
      | live =>
          have hstop := mt hdone.mpr nofun
          rw [if_pos (by simpa [isComing] using hstop)]
          rfl
      | upcoming =>
          have hstop := mt hdone.mpr nofun
          rw [if_pos (by simpa [isComing] using hstop)]
          rfl

theorem displayed_tickStatuses (locale : Locale) (now : Int)
    (items : List Item) :
    (tickStatuses locale now (.list items)).displayed =
      (items.filterMap (tickItem locale now)).map Item.meeting := by
  rw [tickStatuses]
  split
  · rename_i hempty
    rw [hempty]
    rfl
  · rfl

/-- What is displayed is what was selected, but for the events that have
ended. -/
theorem displayed_renderEvents (locale : Locale) (now : Int)
    (selected : List Meeting) :
    (renderEvents locale now selected).displayed =
      selected.filter (isComing now) := by
  cases selected with
  | nil => rfl
  | cons first rest =>
      rw [renderEvents, List.isEmpty_cons, if_neg Bool.false_ne_true,
        displayed_tickStatuses, List.map_filterMap, List.filterMap_map,
        ← List.filterMap_eq_filter]
      apply List.filterMap_congr
      intro meeting _
      exact tickItem_meeting locale now meeting

theorem startsNoLater_trans (a b c : Meeting) (hab : startsNoLater a b = true)
    (hbc : startsNoLater b c = true) : startsNoLater a c = true := by
  simp only [startsNoLater, decide_eq_true_eq] at *
  omega

theorem startsNoLater_total (a b : Meeting) :
    (startsNoLater a b || startsNoLater b a) = true := by
  simp only [startsNoLater, Bool.or_eq_true, decide_eq_true_eq]
  omega

theorem sortedEvents_coming (cfg : Config) (now : Int)
    (events : List (Option Event)) :
    ((sortedEvents cfg now events).filter (isComing now)).Perm
      (coming cfg now events) :=
  (List.mergeSort_perm _ _).filter _

theorem sortedEvents_sorted (cfg : Config) (now : Int)
    (events : List (Option Event)) :
    (sortedEvents cfg now events).Pairwise
      (fun a b => a.start.ms ≤ b.start.ms) :=
  (List.pairwise_mergeSort startsNoLater_trans startsNoLater_total _).imp
    of_decide_eq_true

theorem ShowsNext.length {shown : List Meeting}
    (h : ShowsNext cfg now events shown) :
    shown.length = min cfg.maxEventsToShow (coming cfg now events).length := by
  obtain ⟨sorted, hperm, _, rfl⟩ := h
  rw [List.length_take, hperm.length_eq]

/-- After a fetch the next meetings are shown exactly when the events that fit
are all coming ones, or no coming one is after them. -/
theorem showsNext_iff (cfg : Config) (locale : Locale) (now : Int)
    (events : List (Option Event)) :
    ShowsNext cfg now events
        (renderEvents locale now (selectEvents cfg now events)).displayed ↔
      (∀ meeting ∈ (sortedEvents cfg now events).take cfg.maxEventsToShow,
        now < meeting.stop.ms) ∨
      ∀ meeting ∈ (sortedEvents cfg now events).drop cfg.maxEventsToShow,
        meeting.stop.ms ≤ now := by
  have hcut := @length_filter_take_iff _ (isComing now)
    (sortedEvents cfg now events) cfg.maxEventsToShow
  have hsame := @filter_take_eq _ (isComing now)
    (sortedEvents cfg now events) cfg.maxEventsToShow
  simp only [isComing, decide_eq_true_eq, decide_eq_false_iff_not, Int.not_lt]
    at hcut hsame
  rw [displayed_renderEvents]
  constructor
  · intro h
    rw [← hcut]
    have hlength := h.length
    rwa [← (sortedEvents_coming cfg now events).length_eq] at hlength
  · intro h
    exact ⟨_, sortedEvents_coming cfg now events,
      (sortedEvents_sorted cfg now events).filter _, hsame h⟩

end Selection

/-! A meeting that no one sees. -/

/-- The English texts, of a page that never names the day. -/
def english : Locale where
  statusLive := "live"
  statusDone := "ended"
  countdownIn := fun time => "in " ++ time
  dayLabel := fun _ _ => none

def meetingAt (start stop : TimeValue) : Option Event :=
  some { summary := "", start := some start, stop := some stop, meetUrl := none
         hasMeet := true, uid := "" }

/-- Five meetings that ended ten minutes ago, and one in ten minutes. -/
def crowd : List (Option Event) :=
  List.replicate 5 (meetingAt ⟨1767604200000, by decide⟩
    ⟨1767606600000, by decide⟩) ++
  [meetingAt ⟨1767607800000, by decide⟩ ⟨1767611400000, by decide⟩]

theorem crowd_hides_next :
    ¬ ShowsNext CFG meetingStart.ms crowd (renderEvents english meetingStart.ms
      (selectEvents CFG meetingStart.ms crowd)).displayed := by
  intro h
  have hsorted : sortedEvents CFG meetingStart.ms crowd =
      (crowd.filterMap (·.bind meeting?)).filter
        (inHorizon CFG meetingStart.ms) :=
    List.mergeSort_of_pairwise (by decide)
  have hlength := h.length
  rw [displayed_renderEvents, selectEvents, hsorted] at hlength
  exact absurd hlength (by decide)

end Upcoming

end TwakeKickstart.Visio
