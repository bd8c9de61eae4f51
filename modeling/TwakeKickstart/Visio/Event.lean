import TwakeKickstart.Library.Decimal
import TwakeKickstart.Library.Latest
import TwakeKickstart.Library.RegexWays
import TwakeKickstart.Visio.IcsText

namespace TwakeKickstart.Visio

open Library

/-! Events of a calendar, as the widget of upcoming meetings reads them. -/

/-- The milliseconds that a date can stand for. -/
structure TimeValue where
  ms : Int
  inRange : ms.natAbs ≤ 8640000000000000
  deriving DecidableEq

/-- An invalid date has no time. -/
abbrev Date := Option TimeValue

def timeClip (ms : Int) : Date :=
  if h : ms.natAbs ≤ 8640000000000000 then some ⟨ms, h⟩ else none

/-- The date at the sum of a time and some milliseconds. -/
def later (time : TimeValue) : Double → Date
  | .infinity => none
  | .finite ms =>
      if 0 ≤ time.ms + ms then
        match Double.ofNat (time.ms + ms).toNat with
        | .infinity => none
        | .finite sum => timeClip sum
      else timeClip (time.ms + ms)

def isHostChar (c : Char) : Bool := c.isAlphanum || c == '-' || c == '.'

/-- The page that the widget runs in. -/
structure Page where
  baseDomain : String
  hostChars : ∀ c ∈ baseDomain.toList, isHostChar c = true
  /-- `new Date(text)`, which knows the clock and the zone of the browser. -/
  dateOf : String → Date
  toUpperCase : String → String
  toUpperCase_ascii : ∀ s, (∀ c ∈ s.toList, c.toNat < 128) →
    toUpperCase s = String.ofList (s.toList.map Char.toUpper)

/-! Dates and durations. -/

def digits (count : Nat) (text : List Char) : Bool :=
  text.length == count && text.all Char.isDigit

def substring (text : List Char) (start stop : Nat) : List Char :=
  (text.drop start).take (stop - start)

def parseICSDate (page : Page) (v : String) : Date :=
  let s := v.toList
  let day := substring s 0 4 ++ ['-'] ++ substring s 4 6 ++ ['-'] ++
    substring s 6 8
  -- /^\d{8}$/
  if digits 8 s then
    page.dateOf (String.ofList (day ++ "T00:00:00Z".toList))
  -- /^(\d{4})(\d{2})(\d{2})T(\d{2})(\d{2})(\d{2})(Z?)$/
  else if digits 8 (substring s 0 8) ∧ substring s 8 9 = ['T'] ∧
      digits 6 (substring s 9 15) ∧ (s.drop 15 = [] ∨ s.drop 15 = ['Z']) then
    page.dateOf (String.ofList (day ++ ['T'] ++ substring s 9 11 ++ [':'] ++
      substring s 11 13 ++ [':'] ++ substring s 13 15 ++ s.drop 15))
  else page.dateOf v

/-- The group `(?:(\d+)U)?` for a unit `U`: its digits, `0` where there are
none, and what comes after it. -/
def readUnit (unit : Char) (text : List Char) : List Char × List Char :=
  let digits := text.takeWhile Char.isDigit
  let rest := text.dropWhile Char.isDigit
  if digits ≠ [] ∧ rest.head? = some unit then (digits, rest.tail)
  else (['0'], text)

def parseInt (digits : List Char) : Double :=
  Double.ofNat (Decimal.value digits)

/-- The group `(?:T(?:(\d+)H)?(?:(\d+)M)?(?:(\d+)S)?)?` and the end. -/
def readTime : List Char → Option (Double × Double × Double)
  | [] => some (.finite 0, .finite 0, .finite 0)
  | c :: text =>
      let hours := readUnit 'H' text
      let mins := readUnit 'M' hours.2
      let secs := readUnit 'S' mins.2
      if c = 'T' ∧ secs.2 = [] then
        some (parseInt hours.1, parseInt mins.1, parseInt secs.1)
      else none

/-- A duration like `PT1H30M` in milliseconds. -/
def parseICSDuration (v : String) : Option Double :=
  match v.toList with
  | 'P' :: text =>
      let days := readUnit 'D' text
      (readTime days.2).map fun time =>
        let hours := (parseInt days.1).mul 24 |>.add time.1
        let mins := hours.mul 60 |>.add time.2.1
        let secs := mins.mul 60 |>.add time.2.2
        secs.mul 1000
  | _ => none

/-! The lines of a file. -/

/-- `replace(/\r\n[ \t]/g, '')` -/
def dropLongFolds : List Char → List Char
  | '\r' :: '\n' :: c :: rest =>
      if c = ' ' ∨ c = '\t' then dropLongFolds rest
      else '\r' :: dropLongFolds ('\n' :: c :: rest)
  | c :: rest => c :: dropLongFolds rest
  | [] => []

/-- `replace(/\n[ \t]/g, '')` -/
def dropShortFolds : List Char → List Char
  | '\n' :: c :: rest =>
      if c = ' ' ∨ c = '\t' then dropShortFolds rest
      else '\n' :: dropShortFolds (c :: rest)
  | c :: rest => c :: dropShortFolds rest
  | [] => []

def consToHead (c : Char) : List (List Char) → List (List Char)
  | [] => [[c]]
  | line :: lines => (c :: line) :: lines

/-- `split(/\r?\n/)` -/
def splitLines : List Char → List (List Char)
  | [] => [[]]
  | '\r' :: '\n' :: rest => [] :: splitLines rest
  | '\n' :: rest => [] :: splitLines rest
  | c :: rest => consToHead c (splitLines rest)

def linesOf (ics : String) : List (List Char) :=
  splitLines (dropShortFolds (dropLongFolds ics.toList))

/-! The fields of an event. -/

structure Fields where
  summary : String := ""
  dtstart : Option Date := none
  dtend : Option Date := none
  url : String := ""
  description : String := ""
  videoconf : String := ""
  uid : String := ""
  duration : Option Double := none

def Fields.set (page : Page) (fields : Fields) (name value : String) :
    Fields :=
  if name = "SUMMARY" then { fields with summary := unescapeICSText value }
  else if name = "UID" then { fields with uid := value }
  else if name = "DTSTART" then
    { fields with dtstart := some (parseICSDate page value) }
  else if name = "DTEND" then
    { fields with dtend := some (parseICSDate page value) }
  else if name = "DURATION" then
    { fields with duration := parseICSDuration value }
  else if name = "URL" then { fields with url := value }
  else if name = "DESCRIPTION" then
    { fields with description := unescapeICSText value }
  else if name = "X-OPENPAAS-VIDEOCONFERENCE" then
    { fields with videoconf := value }
  else fields

/-- The name and the value of a line that has a colon. -/
def readLine (page : Page) (line : List Char) : Option (String × String) :=
  if ':' ∈ line then
    let head := line.takeWhile (· ≠ ':')
    let value := (line.dropWhile (· ≠ ':')).tail
    some (page.toUpperCase (String.ofList (head.takeWhile (· ≠ ';'))),
      String.ofList value)
  else none

def beginEvent : List Char := "BEGIN:VEVENT".toList

def endEvent : List Char := "END:VEVENT".toList

def readFields (page : Page) : Bool → Fields → List (List Char) → Fields
  | _, fields, [] => fields
  | inEvent, fields, line :: lines =>
      if line = beginEvent then readFields page true fields lines
      else if line = endEvent then fields
      else if inEvent = false then readFields page inEvent fields lines
      else
        match readLine page line with
        | none => readFields page inEvent fields lines
        | some (name, value) =>
            readFields page inEvent (fields.set page name value) lines

/-! The event that the fields give. -/

structure Event where
  summary : String
  start : Date
  stop : Date
  meetUrl : Option String
  hasMeet : Bool
  uid : String

/-- A character in either case. -/
def anyCase (c : Char) : Regex := .one fun other => other.toUpper == c.toUpper

def anyCases (text : String) : Regex :=
  .sequence (text.toList.map anyCase)

def Page.meetHostPattern (page : Page) : Regex :=
  anyCases ("meet." ++ page.baseDomain)

/-- The link `https?://[^\s"<]*meet\.…[^\s"<]*`. -/
def Page.meetLink (page : Page) : Regex :=
  let linkChars : Regex :=
    .many fun c => !(isSpaceChar c || c == '"' || c == '<')
  .sequence [anyCases "http", .optional (anyCase 's'), anyCases "://",
    linkChars, page.meetHostPattern, linkChars]

/-- The first place where an expression is found, and what it takes there. -/
def search (expression : Regex) : List Char → Option (List Char)
  | [] => (expression.ways []).head?
  | c :: text =>
      match (expression.ways (c :: text)).head? with
      | some rest => some ((c :: text).take (text.length + 1 - rest.length))
      | none => search expression text

def hour : Double := .finite 3600000

/-- An hour where there is no duration, and where it is falsy. -/
def durationOrHour : Option Double → Double
  | some duration => if duration = .finite 0 then hour else duration
  | none => hour

def Fields.event (page : Page) (fields : Fields) : Option Event :=
  fields.dtstart.map fun start =>
    let stop := fields.dtend.getD (start.bind fun time =>
      later time (durationOrHour fields.duration))
    let haystack := (fields.videoconf ++ "\n" ++ fields.url ++ "\n" ++
      fields.description).toList
    let hasMeet := (search page.meetHostPattern haystack).isSome
    let meetUrl :=
      if hasMeet then (search page.meetLink haystack).map String.ofList
      else none
    { summary := fields.summary, start, stop, meetUrl, hasMeet
      uid := fields.uid }

def parseEvent (page : Page) (ics : String) : Option Event :=
  if ics = "" then none
  else (readFields page false {} (linesOf ics)).event page

/-! The lines that the fields are taken from. -/

/-- What is read on each line, up to the end of the event. -/
def places (page : Page) :
    Bool → List (List Char) → List (Option (String × String))
  | _, [] => []
  | inEvent, line :: lines =>
      if line = beginEvent then none :: places page true lines
      else if line = endEvent then []
      else if inEvent = false then none :: places page inEvent lines
      else readLine page line :: places page inEvent lines

def valueAt (name : String) (read : Option (String × String)) :
    Option String :=
  read.bind fun named => if named.1 = name then some named.2 else none

/-- The line that a field is taken from: its place, and the value read
there. -/
def taken (page : Page) (ics name : String) : Option (Nat × String) :=
  latest (valueAt name) (places page false (linesOf ics))

def fieldsOf (page : Page) (value : String → Option String) : Fields where
  summary := ((value "SUMMARY").map unescapeICSText).getD ""
  dtstart := (value "DTSTART").map (parseICSDate page)
  dtend := (value "DTEND").map (parseICSDate page)
  url := (value "URL").getD ""
  description := ((value "DESCRIPTION").map unescapeICSText).getD ""
  videoconf := (value "X-OPENPAAS-VIDEOCONFERENCE").getD ""
  uid := (value "UID").getD ""
  duration := (value "DURATION").bind parseICSDuration

def eventOf (page : Page) (value : String → Option String) : Option Event :=
  (fieldsOf page value).event page

theorem set_fieldsOf (page : Page) (value : String → Option String)
    (name read : String) :
    (fieldsOf page value).set page name read =
      fieldsOf page fun other =>
        if other = name then some read else value other := by
  rw [Fields.set]
  split
  · subst name
    simp [fieldsOf]
  split
  · subst name
    simp [fieldsOf]
  split
  · subst name
    simp [fieldsOf]
  split
  · subst name
    simp [fieldsOf]
  split
  · subst name
    simp [fieldsOf]
  split
  · subst name
    simp [fieldsOf]
  split
  · subst name
    simp [fieldsOf]
  split
  · subst name
    simp [fieldsOf]
  · simp_all [fieldsOf, eq_comm]

theorem latest_valueAt_cons (name : String) (read : Option (String × String))
    (reads : List (Option (String × String))) :
    (latest (valueAt name) (read :: reads)).map Prod.snd =
      ((latest (valueAt name) reads).map Prod.snd).or (valueAt name read) := by
  rw [latest_cons]
  cases latest (valueAt name) reads <;> cases valueAt name read <;> rfl

theorem readFields_fieldsOf (page : Page) (lines : List (List Char))
    (inEvent : Bool) (value : String → Option String) :
    readFields page inEvent (fieldsOf page value) lines =
      fieldsOf page fun name =>
        ((latest (valueAt name) (places page inEvent lines)).map Prod.snd).or
          (value name) := by
  induction lines generalizing inEvent value with
  | nil => rfl
  | cons line lines ih =>
      have hsilent (rest : List (Option (String × String))) (name : String) :
          ((latest (valueAt name) (none :: rest)).map Prod.snd) =
            (latest (valueAt name) rest).map Prod.snd := by
        rw [latest_valueAt_cons]
        exact Option.or_none
      rw [readFields, places]
      split
      · simp only [hsilent]
        exact ih true value
      split
      · rfl
      split
      · simp only [hsilent]
        exact ih inEvent value
      cases hread : readLine page line with
      | none =>
          simp only [hsilent]
          exact ih inEvent value
      | some named =>
          simp only [latest_valueAt_cons, Option.or_assoc]
          rw [set_fieldsOf, ih]
          congr 1
          funext name
          congr 1
          rw [valueAt, Option.bind_some]
          by_cases hname : name = named.1
          · rw [if_pos hname, if_pos hname.symm]
            rfl
          · rw [if_neg hname, if_neg (Ne.symm hname)]
            rfl

theorem parseEvent_eq (page : Page) (ics : String) :
    parseEvent page ics =
      eventOf page fun name => (taken page ics name).map Prod.snd := by
  have hfields := readFields_fieldsOf page (linesOf ics) false fun _ => none
  simp only [Option.or_none] at hfields
  rw [parseEvent]
  split
  · rename_i hempty
    subst hempty
    rfl
  · exact congrArg (Fields.event page) hfields

/-! A page that knows one date. -/

def meetingStart : TimeValue := ⟨1767607200000, by decide⟩

def meetingPage : Page where
  baseDomain := "twake.app"
  hostChars := List.all_eq_true.mp (by decide)
  dateOf := fun text =>
    if text = "2026-01-05T10:00:00Z" then some meetingStart else none
  toUpperCase := fun s => String.ofList (s.toList.map Char.toUpper)
  toUpperCase_ascii := fun _ _ => rfl

end TwakeKickstart.Visio
